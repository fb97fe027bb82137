/-
# The graph of a context is exact

The nodes of the graph are the least set of names that has the roots and, with
each name, those that its value refers to. Its edges are just these references,
each once and in the order of the value, and each node tells what looking its
name up came to. A name gets its node when it is first referred to, and its
details when its turn on the stack comes; until then it has no edges of its own.
There is a graph unless a value that is reached cannot be read.

Key definitions: `details?`, `lookedUp`, `IsExact`, `IsTold`, `Telling`.
Key theorem: `ofContext_exact`.
-/
import Stencil.Proofs.Context.Plain
import Stencil.Proofs.Graph.Reach

namespace Stencil

namespace Graph

open Context ListFacts Template

/-- What is known of a name in the graph, once it has been looked up. -/
def details? (g : Graph) (n : String) : Option NodeDetails := (g.find? n).bind Node.details?

/-- What is told of a name that was looked up. -/
def lookedUp : Option Definition → NodeDetails
  | none => { isDefined := false }
  | some d => detailsOf d

/-- The graph is the reference relation among the names that are reached from the roots, with what
each of them means. -/
structure IsExact (c : Context) (roots : List String) (g : Graph) : Prop where
  roots_once : FirstSeen g.roots roots
  /-- The nodes are the least set that has the roots and is closed under references. -/
  nodes : IsLeast {s : Set String | (∀ n ∈ roots, n ∈ s) ∧ ∀ a ∈ s, ∀ b, c.Refers a b → b ∈ s}
    {n | n ∈ g.names}
  nodes_once : g.names.Nodup
  edges : ∀ a b, (a, b) ∈ g.edges ↔ a ∈ g.names ∧ c.Refers a b
  edges_once : g.edges.Nodup
  /-- The references of a name stand in the table once each, in order of first appearance. -/
  adjacency : ∀ n ∈ g.names, ∀ d segments, c.define? n = .ok (some d) → d.parsed = .ok segments →
    FirstSeen (lookIn g.adjacency n) (segments.filterMap Segment.variableName?)
  /-- Each name of the graph has been looked up, and its node tells what that came to. -/
  details : ∀ n ∈ g.names, ∃ d?, c.define? n = .ok d? ∧ g.details? n = some (lookedUp d?)
  isDefined : ∀ n ∈ g.names, g.isDefined n = (c.lookup? n).isSome
  /-- A name without a value that can be read refers to nothing. -/
  idle : ∀ n, (∀ d segments, c.define? n = .ok (some d) → d.parsed ≠ .ok segments) →
    lookIn g.adjacency n = []

/-! ### Details and edges of a single name -/

theorem find?_putNode (a n : String) (k : NodeDetails) (nodes : List Node) :
    (putNode a k nodes).find? (fun m => m.name == n) =
      if a = n then some ⟨a, some k⟩ else nodes.find? fun m => m.name == n := by
  induction nodes with
  | nil =>
    by_cases h : a = n
    · simp [putNode, h]
    · simp [putNode, h]
  | cons m r ih =>
    rw [putNode]
    by_cases hm : m.name = a
    · rw [if_pos (beq_iff_eq.2 hm)]
      by_cases h : a = n
      · simp [h]
      · simp [h, hm]
    · rw [if_neg (by simpa using hm)]
      by_cases hn : m.name = n
      · have ha : a ≠ n := fun ha => hm (hn.trans ha.symm)
        simp [hn, ha]
      · rw [List.find?_cons_of_neg (by simpa using hn), ih,
          List.find?_cons_of_neg (by simpa using hn)]

theorem details?_addNode (g : Graph) (a n : String) (k : NodeDetails) :
    (g.addNode a k).details? n = if a = n then some k else g.details? n := by
  unfold details? find? addNode
  rw [find?_putNode]
  split_ifs <;> rfl

/-- A new node tells nothing. -/
theorem details?_touch (g : Graph) (a n : String) : (g.touch a).details? n = g.details? n := by
  unfold touch
  split_ifs with h
  · rfl
  · unfold details? find?
    rw [List.find?_append]
    cases hf : g.nodes.find? fun m => m.name == n with
    | some m => rfl
    | none =>
      by_cases ha : a = n
      · simp [ha]
      · simp [ha]

theorem details?_addEdge (g : Graph) (a b n : String) :
    (g.addEdge a b).details? n = g.details? n := by
  have h : (g.addEdge a b).details? n = ((g.touch a).touch b).details? n := by
    unfold addEdge
    dsimp only
    split_ifs <;> rfl
  rw [h, details?_touch, details?_touch]

theorem successors_addEdge (g : Graph) (a b n : String) :
    (g.addEdge a b).successors n =
      if a = n ∧ b ∉ g.successors n then g.successors n ++ [b] else g.successors n := by
  have he : ((g.touch a).touch b).edges = g.edges := by rw [touch_edges, touch_edges]
  have hmem : ((g.touch a).touch b).edges.contains (a, b) = true ↔ b ∈ g.successors a := by
    rw [List.contains_iff_mem, he, mem_successors]
    exact Iff.rfl
  unfold addEdge
  dsimp only
  by_cases hb : b ∈ g.successors a
  · rw [if_pos (hmem.2 hb), if_neg (by rintro ⟨rfl, hn⟩; exact hn hb)]
    unfold successors
    rw [he]
  · rw [if_neg (fun hc => hb (hmem.1 hc))]
    unfold successors at hb ⊢
    dsimp only
    rw [he, List.filter_append, List.map_append]
    by_cases ha : a = n
    · subst ha
      rw [if_pos ⟨rfl, hb⟩]
      simp
    · rw [if_neg (fun h => ha h.1)]
      simp [ha]

theorem nodup_addEdge {g : Graph} (h : g.edges.Nodup) (a b : String) :
    (g.addEdge a b).edges.Nodup := by
  have he : ((g.touch a).touch b).edges = g.edges := by rw [touch_edges, touch_edges]
  unfold addEdge
  dsimp only
  split_ifs with hc
  · rwa [he]
  · rw [he] at hc ⊢
    refine List.nodup_append.2 ⟨h, by simp, ?_⟩
    rintro e hm f hf rfl
    rw [List.mem_singleton.1 hf] at hm
    exact hc (List.contains_iff_mem.2 hm)

/-- Edges from one name to others that it has no edges to yet stand in their order. -/
theorem foldl_addEdge_successors (a : String) {ms : List String} {g : Graph} (hn : ms.Nodup)
    (hd : ∀ m ∈ ms, m ∉ g.successors a) (n : String) :
    (ms.foldl (fun g m => g.addEdge a m) g).successors n =
      if a = n then g.successors n ++ ms else g.successors n := by
  induction ms generalizing g with
  | nil => simp
  | cons m ms ih =>
    obtain ⟨hm, hms⟩ := List.nodup_cons.1 hn
    have hstep := successors_addEdge g a m
    have hfresh := hd m List.mem_cons_self
    have hrest : ∀ k ∈ ms, k ∉ (g.addEdge a m).successors a := by
      intro k hk hmem
      rw [hstep, if_pos ⟨rfl, hfresh⟩] at hmem
      rcases List.mem_append.1 hmem with hmem | hmem
      · exact hd k (List.mem_cons_of_mem _ hk) hmem
      · exact hm (List.mem_singleton.1 hmem ▸ hk)
    rw [List.foldl_cons, ih hms hrest, hstep]
    by_cases ha : a = n
    · subst ha
      rw [if_pos rfl, if_pos rfl, if_pos ⟨rfl, hfresh⟩, List.append_assoc, List.singleton_append]
    · rw [if_neg ha, if_neg ha, if_neg fun h => ha h.1]

theorem foldl_addEdge_roots (a : String) (ms : List String) (g : Graph) :
    (ms.foldl (fun g m => g.addEdge a m) g).roots = g.roots := by
  induction ms generalizing g with
  | nil => rfl
  | cons m ms ih =>
    have hm : (g.addEdge a m).roots = g.roots := by
      unfold addEdge touch
      dsimp only
      split_ifs <;> rfl
    rw [List.foldl_cons, ih, hm]

theorem foldl_addEdge_details (a : String) (ms : List String) (g : Graph) (n : String) :
    (ms.foldl (fun g m => g.addEdge a m) g).details? n = g.details? n := by
  induction ms generalizing g with
  | nil => rfl
  | cons m ms ih => rw [List.foldl_cons, ih, details?_addEdge]

theorem foldl_addEdge_nodup (a : String) (ms : List String) {g : Graph} (h : g.edges.Nodup) :
    (ms.foldl (fun g m => g.addEdge a m) g).edges.Nodup := by
  induction ms generalizing g with
  | nil => exact h
  | cons m ms ih => exact ih (nodup_addEdge h a m)

theorem references_nodup (d : Definition) : d.references.Nodup := by
  unfold Definition.references
  split
  · exact (firstSeen_eraseDups _).nodup
  · exact .nil

/-! ### Looking names up -/

/-- The graph tells what looking a name up came to, and has its references. -/
structure IsTold (c : Context) (g : Graph) (n : String) (d? : Option Definition) : Prop where
  define : c.define? n = .ok d?
  details : g.details? n = some (lookedUp d?)
  successors : g.successors n = (d?.map Definition.references).getD []

/-- How far the names have been looked up: those that are in the graph are told, or wait for that,
and those that wait have no edges yet. -/
structure Telling (c : Context) (fresh stack : List String) (g : Graph) : Prop where
  nodup : fresh.Nodup
  edges : g.edges.Nodup
  told : ∀ n ∈ g.names, n ∈ stack ∨ ∃ d?, IsTold c g n d?
  looked : ∀ n d, c.define? n = .ok (some d) → n ∉ fresh → IsTold c g n (some d)
  idle : ∀ n, n ∈ fresh ∨ c.define? n = .ok none → g.successors n = []

section Telling

variable {c : Context} {roots fresh stack rest : List String} {g g' : Graph} {name n : String}
  {d : Definition}

theorem IsTold.addNode {d? : Option Definition} {k : NodeDetails} (h : IsTold c g n d?)
    (hn : name ≠ n) : IsTold c (g.addNode name k) n d? :=
  ⟨h.define, by rw [details?_addNode, if_neg hn]; exact h.details, h.successors⟩

/-- A name that no scope defines is told so. -/
theorem Telling.undefined (h : Telling c fresh (name :: rest) g) (hd : c.define? name = .ok none) :
    Telling c fresh rest (g.addNode name { isDefined := false }) := by
  have hself : IsTold c (g.addNode name { isDefined := false }) name none :=
    ⟨hd, by rw [details?_addNode, if_pos rfl]; rfl, h.idle name (.inr hd)⟩
  refine ⟨h.nodup, h.edges, fun n hn => ?_, fun n d hnd hf => ?_, h.idle⟩
  · by_cases hne : name = n
    · exact .inr ⟨none, hne ▸ hself⟩
    · have hmem := (mem_addNode.1 hn).resolve_right (Ne.symm hne)
      rcases h.told n hmem with hs | ⟨d?, ht⟩
      · exact .inl ((List.mem_cons.1 hs).resolve_left (Ne.symm hne))
      · exact .inr ⟨d?, ht.addNode hne⟩
  · refine (h.looked n d hnd hf).addNode ?_
    rintro rfl
    rw [hd] at hnd
    cases hnd

theorem addDefinition_details (g : Graph) (name n : String) (d : Definition) :
    (g.addDefinition name d).details? n =
      if name = n then some (detailsOf d) else g.details? n := by
  rw [addDefinition, foldl_addEdge_details, details?_addNode]

/-- The references of a name that has no edges yet are its edges then. -/
theorem addDefinition_successors (hs : g.successors name = []) (n : String) :
    (g.addDefinition name d).successors n =
      if name = n then d.references else g.successors n := by
  have hfresh : ∀ m ∈ d.references, m ∉ (g.addNode name (detailsOf d)).successors name :=
    fun m _ hm => absurd (hs ▸ hm) List.not_mem_nil
  rw [addDefinition, foldl_addEdge_successors name (references_nodup d) hfresh n]
  by_cases hn : name = n
  · subst hn
    rw [if_pos rfl, if_pos rfl]
    exact congrArg (· ++ d.references) hs
  · rw [if_neg hn, if_neg hn]
    rfl

/-- A name that is looked up for the first time is told, and its references wait. -/
theorem Telling.first (h : Telling c fresh (name :: rest) g) (hw : g.IsWellFormed)
    (hd : c.define? name = .ok (some d)) (hf : name ∈ fresh) :
    Telling c (fresh.erase name) (d.references.reverse ++ rest) (g.addDefinition name d) := by
  have hs := h.idle name (.inl hf)
  have hself : IsTold c (g.addDefinition name d) name (some d) :=
    ⟨hd, by rw [addDefinition_details, if_pos rfl]; rfl,
      by rw [addDefinition_successors hs, if_pos rfl]; rfl⟩
  have hother : ∀ n d?, name ≠ n → IsTold c g n d? → IsTold c (g.addDefinition name d) n d? :=
    fun n d? hne ht => ⟨ht.define, by rw [addDefinition_details, if_neg hne]; exact ht.details,
      by rw [addDefinition_successors hs, if_neg hne]; exact ht.successors⟩
  refine ⟨h.nodup.erase name, foldl_addEdge_nodup name d.references h.edges, fun n hn => ?_,
    fun n e hne hnf => ?_, fun n hn => ?_⟩
  · by_cases hne : name = n
    · exact .inr ⟨some d, hne ▸ hself⟩
    · rcases (mem_addDefinition hw).1 hn with hn | rfl | hn
      · rcases h.told n hn with hs | ⟨d?, ht⟩
        · exact .inl (List.mem_append_right _ ((List.mem_cons.1 hs).resolve_left (Ne.symm hne)))
        · exact .inr ⟨d?, hother n d? hne ht⟩
      · exact absurd rfl hne
      · exact .inl (List.mem_append_left _ (List.mem_reverse.2 hn))
  · by_cases hnn : name = n
    · subst hnn
      rw [hd] at hne
      cases hne
      exact hself
    · have hnf' : n ∉ fresh := fun hm => hnf (h.nodup.mem_erase_iff.2 ⟨Ne.symm hnn, hm⟩)
      exact hother n (some e) hnn (h.looked n e hne hnf')
  · -- a name that still waits, or that no scope defines, is another one
    have hne : name ≠ n := by
      rintro rfl
      rcases hn with hn | hn
      · exact (h.nodup.mem_erase_iff.1 hn).1 rfl
      · rw [hd] at hn
        cases hn
    rw [addDefinition_successors hs, if_neg hne]
    exact h.idle n (hn.imp_left List.mem_of_mem_erase)

/-- A name that has been looked up before is told already. -/
theorem Telling.again (h : Telling c fresh (name :: rest) g) (hd : c.define? name = .ok (some d))
    (hf : name ∉ fresh) : Telling c fresh rest g := by
  refine ⟨h.nodup, h.edges, fun n hn => ?_, h.looked, h.idle⟩
  rcases h.told n hn with hs | ht
  · rcases List.mem_cons.1 hs with rfl | hs
    · exact .inr ⟨some d, h.looked n d hd hf⟩
    · exact .inl hs
  · exact .inr ht

/-- **Once no name waits any more, each name of the graph is told.** -/
theorem reach_told (hp : Progress c roots fresh stack g) (h : Telling c fresh stack g)
    (hr : reach c fresh stack g = .ok g') :
    g'.roots = g.roots ∧ g'.edges.Nodup ∧ ∀ n ∈ g'.names, ∃ d?, IsTold c g' n d? := by
  fun_induction reach c fresh stack g with
  | case1 fresh g =>
    cases hr
    exact ⟨rfl, h.edges, fun n hn => (h.told n hn).resolve_left List.not_mem_nil⟩
  | case2 fresh g name rest e hd => cases hr
  | case3 fresh g name rest hd ih => exact ih (hp.undefined hd) (h.undefined hd) hr
  | case4 fresh g name rest d hd hf ih =>
    have hroots : (g.addDefinition name d).roots = g.roots := foldl_addEdge_roots name d.references _
    rw [← hroots]
    exact ih (hp.first hd) (h.first hp.wellFormed hd (by simpa using hf)) hr
  | case5 fresh g name rest d hd hf ih =>
    have hf : name ∉ fresh := fun hm => hf (by simpa using hm)
    exact ih (hp.again hd hf) (h.again hd hf) hr

theorem telling_start (c : Context) (roots : List String) :
    Telling c c.definedNames roots.eraseDups (ofRoots roots) :=
  ⟨c.definedNames_nodup, .nil, fun _ hn => absurd hn List.not_mem_nil,
    fun _ _ hd hf => absurd (mem_definedNames hd) hf, fun _ _ => rfl⟩

end Telling

/-! ### The whole graph -/

section

variable {c : Context} {roots : List String} {g : Graph} {n : String}

/-- What is reached is the least set that has the roots and is closed under references. -/
theorem isLeast_reached (c : Context) (roots : List String) :
    IsLeast {s : Set String | (∀ n ∈ roots, n ∈ s) ∧ ∀ a ∈ s, ∀ b, c.Refers a b → b ∈ s}
      {n | c.Reached roots n} := by
  refine ⟨⟨fun n hn => ⟨n, hn, .refl⟩, fun a ha b hab => Reached.refers ha hab⟩, ?_⟩
  rintro s ⟨hroots, hclosed⟩ n ⟨r, hr, hrn⟩
  induction hrn with
  | refl => exact hroots r hr
  | tail _ hbc ih => exact hclosed _ ih _ hbc

theorem lookup?_isSome {d? : Option Definition} (h : c.define? n = .ok d?) :
    (c.lookup? n).isSome = (lookedUp d?).isDefined := by
  unfold define? at h
  split at h
  · rename_i hl
    cases h
    rw [hl]
    rfl
  · rename_i hl
    rw [hl]
    split at h
    · cases h
    · split at h
      · cases h
      · cases h
        rfl

theorem lookIn_adjacency (hn : n ∈ g.names) : lookIn g.adjacency n = g.successors n :=
  lookIn_map hn

/-- The graph of a context is exact. -/
theorem ofContext_isExact (hg : ofContext c roots = .ok g) : g.IsExact c roots := by
  have hdep := ofContext_depicts hg
  obtain ⟨hroots, hedges, htold⟩ := reach_told (progress_start c roots) (telling_start c roots) hg
  have hnames : {n | n ∈ g.names} = {n | c.Reached roots n} := Set.ext hdep.names
  refine ⟨hroots ▸ firstSeen_eraseDups roots, hnames ▸ isLeast_reached c roots, hdep.wellFormed.nodup,
    fun a b => ?_, hedges, fun n hn d segments hd hp => ?_, fun n hn => ?_, fun n hn => ?_,
    fun n hn => ?_⟩
  · rw [hdep.names]
    exact hdep.edge a b
  · obtain ⟨d?, ht⟩ := htold n hn
    obtain rfl : d? = some d := Except.ok.inj (ht.define.symm.trans hd)
    have hrefs : d.references = (segments.filterMap Segment.variableName?).eraseDups := by
      rw [Definition.references, hp]
      rfl
    rw [lookIn_adjacency hn, ht.successors, Option.map_some, Option.getD_some, hrefs]
    exact firstSeen_eraseDups _
  · obtain ⟨d?, ht⟩ := htold n hn
    exact ⟨d?, ht.define, ht.details⟩
  · obtain ⟨d?, ht⟩ := htold n hn
    have hdet := ht.details
    unfold details? at hdet
    rw [isDefined, hdet, lookup?_isSome ht.define]
    rfl
  · by_contra hne
    obtain ⟨m, hm⟩ := List.exists_mem_of_ne_nil _ hne
    obtain ⟨-, d, hd, hm⟩ := (hdep.edge n m).1 (hdep.wellFormed.mem_lookIn.1 hm)
    cases hp : d.parsed with
    | error f =>
      rw [Definition.references, hp] at hm
      exact absurd hm List.not_mem_nil
    | ok segments => exact hn d segments hd hp

/-- **There is an exact graph of a context with texts for values, unless a value that is reached has
an integer literal of too many digits.** -/
theorem ofContext_exact {c : Context} (ht : c.HasTexts) (roots : List String) :
    (∃ g, ofContext c roots = .ok g ∧ g.IsExact c roots) ∨
      ∃ n r, c.Reached roots n ∧ c.define? n = .error r ∧ TooLong r ∧
        ofContext c roots = .error r := by
  cases hg : ofContext c roots with
  | ok g => exact .inl ⟨g, rfl, ofContext_isExact hg⟩
  | error r =>
    obtain ⟨n, hn, hd⟩ := ofContext_error hg
    exact .inr ⟨n, r, hn, hd, define?_tooLong ht hd, rfl⟩

/-- A name that refers to itself and, twice, to one that no scope defines, and a malformed one. -/
theorem exact_loop :
    let c : Context := { global := [
      { name := "loop", value := .text "$\x7bgone\x7d$\x7bloop\x7d$\x7bgone\x7d" },
      { name := "open", value := .text "$\x7b" }] }
    ∃ g, ofContext c ["loop", "open", "loop"] = .ok g ∧ g.IsExact c ["loop", "open", "loop"] := by
  intro c
  have hv : ∀ s, ∀ v ∈ c.inScope s,
      ∃ t parsed, v.value = .text t ∧ Template.parse t = .ok parsed := by
    intro s v hv
    cases s <;> simp [c, Context.inScope] at hv
    rcases hv with rfl | rfl
    · exact ⟨_, _, rfl, by cbv⟩
    · exact ⟨_, _, rfl, by cbv⟩
  have ht : c.HasTexts := by
    intro s v hm
    obtain ⟨t, -, htext, -⟩ := hv s v hm
    exact ⟨t, htext⟩
  rcases ofContext_exact ht ["loop", "open", "loop"] with hg | ⟨n, r, -, hd, -⟩
  · exact hg
  · unfold define? at hd
    split at hd
    · cases hd
    · rename_i s v hl
      obtain ⟨t, parsed, htext, hp⟩ := hv s v (lookup?_mem hl)
      rw [Variable.template?, htext] at hd
      dsimp only [Value.template?] at hd
      rw [hp] at hd
      cases hd

end

end Graph
end Stencil
