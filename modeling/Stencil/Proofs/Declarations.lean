/-
# What a file declares

Each entry of a file stands for one variable (`declared`), and the loader reads
just these: those of the system and the global ones in their order, and those of
each profile and rule in theirs. Owners are known by the texts of their ids,
which need not differ where the ids do. A group whose id has the text of a later
one's is replaced by that one, in its own place, and its variables are gone.

Key definitions: `declared`, `groupOf`, `standing`, `Keeps`, `declaredCount`.
Key theorems: `ofEntries_declared`, `groupsOf_perm`, `keepsGroups_of_groups`,
`entryCount_standing_iff`, `ofValue_keeps`.
-/
import Mathlib.Data.List.Pairwise
import Mathlib.Tactic.SplitIfs
import Stencil.Declarations.Read
import Stencil.Proofs.Reading

namespace Stencil
namespace Declarations

open ListFacts

/-! ### What is written -/

/-- The entries of a mapping; other values have none. -/
def entriesIn : Value → List (Value × Value)
  | .map entries => entries
  | _ => []

/-- The entries of what stands under a key. -/
def entriesAt (entries : List (Value × Value)) (key : String) : List (Value × Value) :=
  entriesIn ((Value.lookup? entries key).getD .null)

/-- The value that is given to a variable, alone or in a mapping. -/
def contentIn : Value → Value
  | .map entries => (Value.lookup? entries "value").getD .null
  | v => v

/-- A scalar as text. -/
def scalarText : Value → String
  | .bool b => if b then "true" else "false"
  | v => v.plain

/-- The truth value under a key. -/
def truthAt (entries : List (Value × Value)) (key : String) (fallback : Bool) : Bool :=
  match Value.lookup? entries key with
  | some (.bool b) => b
  | _ => fallback

/-- The items of the list under a key. -/
def itemsAt (entries : List (Value × Value)) (key : String) : List Value :=
  match Value.lookup? entries key with
  | some (.list items) => items
  | _ => []

/-- The variable that an entry stands for. -/
def declared (scope : Scope) (owner : Option String) (entry : Value × Value) : Variable where
  name := entry.1.plain
  value := .text (scalarText (contentIn entry.2))
  scope
  owner
  isEnabled := truthAt (entriesIn entry.2) "enabled" true
  isSecret := truthAt (entriesIn entry.2) "secret" false
  tags := (itemsAt (entriesIn entry.2) "tags").map fun t => .text t.plain
  description := (Value.lookup? (entriesIn entry.2) "description").getD .null

/-- The names of entries are identifiers. -/
def AreNamed (entries : List (Value × Value)) : Prop :=
  ∀ entry ∈ entries, Template.isIdentifier entry.1.plain.toList = true

/-- The text of a group's id. -/
def idText (g : Value × Value) : String := g.1.plain

/-- The owner and the variables that a group stands for. -/
def groupOf (scope : Scope) (g : Value × Value) : String × List Variable :=
  (idText g, (entriesIn g.2).map (declared scope (some (idText g))))

/-- The groups after which none with the same text of its id comes. -/
def standing : List (Value × Value) → List (Value × Value)
  | [] => []
  | g :: gs => if idText g ∈ gs.map idText then standing gs else g :: standing gs

/-- Each owner has, in the place where it is named first, the variables of its last group. If the
texts of all ids differ these are the groups as they are written. -/
structure KeepsGroups (scope : Scope) (gs : List (Value × Value)) (groups : Groups) : Prop where
  owners : groups.map Prod.fst = (gs.map idText).eraseDups
  kept : groups.Perm ((standing gs).map (groupOf scope))
  whole : (gs.map idText).Nodup → groups = gs.map (groupOf scope)
  named : ∀ g ∈ gs, AreNamed (entriesIn g.2)

/-- The declarations are those of the section `parts`. -/
structure Keeps (parts : List (Value × Value)) (d : Declarations) : Prop where
  system : d.system = (entriesAt parts "system").map (declared .system none)
  global : d.global = (entriesAt parts "global").map (declared .global none)
  named : AreNamed (entriesAt parts "system") ∧ AreNamed (entriesAt parts "global")
  profiles : KeepsGroups .profile (entriesAt parts "profiles") d.profiles
  rules : KeepsGroups .rule (entriesAt parts "rules") d.rules

/-- The number of entries in groups. -/
def entryCount (gs : List (Value × Value)) : Nat := (gs.flatMap fun g => entriesIn g.2).length

theorem entryCount_cons (g : Value × Value) (gs : List (Value × Value)) :
    entryCount (g :: gs) = (entriesIn g.2).length + entryCount gs := List.length_append

/-- The number of entries in the section `parts`. -/
def declaredCount (parts : List (Value × Value)) : Nat :=
  (entriesAt parts "system").length + (entriesAt parts "global").length +
    (entryCount (entriesAt parts "profiles") + entryCount (entriesAt parts "rules"))

variable {scope : Scope} {owner : Option String} {name key : String} {k v w : Value} {x : Variable}
  {entries more parts gs : List (Value × Value)} {vs : List Variable} {groups groups' : Groups}

/-! ### Entries -/

theorem textOf_ok {s : String} (h : textOf v = .ok s) : s = v.plain := by
  unfold textOf at h
  split_ifs at h
  cases h
  rfl

theorem options_ok (h : options name v = .ok (w, more)) : w = contentIn v ∧ more = entriesIn v := by
  unfold options at h
  split at h
  · split at h
    · cases h
    · split at h
      · cases h
      · rename_i hvalue
        cases h
        exact ⟨by rw [contentIn, hvalue]; rfl, rfl⟩
  · rename_i hmap
    cases h
    cases v with
    | map entries => exact absurd rfl (hmap entries)
    | _ => exact ⟨rfl, rfl⟩

/-- There are no entries under a key without a value, or with an empty one. -/
theorem entriesAt_of_empty {key : String}
    (h : ∀ v, Value.lookup? entries key = some v → v.isTrue = false) : entriesAt entries key = [] := by
  unfold entriesAt
  cases hl : Value.lookup? entries key with
  | none => rfl
  | some v =>
    have hv := h v hl
    cases v with
    | map es => simpa [Value.isTrue, entriesIn] using hv
    | _ => rfl

/-- An optional mapping is read as the entries under its key. -/
theorem entriesAt_ok {F : Type} {fault : F} {key : String} {es : List (Value × Value)}
    (h : (match Value.lookup? entries key with
      | none => .ok []
      | some v =>
        if !v.isTrue then .ok []
        else
          match v with
          | .map es => .ok es
          | _ => .error fault) = Except.ok es) : es = entriesAt entries key := by
  rcases ok_of_shaped h with ⟨rfl, hempty⟩ | ⟨v, hv, h⟩
  · exact (entriesAt_of_empty hempty).symm
  · cases v with
    | map entries =>
      cases h
      rw [entriesAt, hv]
      rfl
    | _ => cases h

theorem tagsOf_ok {tags : List Value} (h : tagsOf name (Value.lookup? more "tags") = .ok tags) :
    tags = itemsAt more "tags" := by
  unfold itemsAt
  rcases ok_of_shaped h with ⟨rfl, hempty⟩ | ⟨v, hv, h⟩
  · cases hl : Value.lookup? more "tags" with
    | none => rfl
    | some v =>
      have hv := hempty v hl
      cases v with
      | list items => simpa [Value.isTrue] using hv
      | _ => rfl
  · rw [hv]
    cases v with
    | list items =>
      cases h
      rfl
    | _ => cases h

theorem valueText_ok {s : String} (h : valueText name v = .ok s) : s = scalarText v := by
  unfold valueText at h
  split at h
  · cases h
  · cases h
  · cases h
  · cases h
    rfl
  · rename_i hbool
    rw [textOf_ok h]
    cases v with
    | bool b => exact absurd rfl (hbool b)
    | _ => rfl

theorem flag_ok {fallback b : Bool} (h : flag name more key fallback = .ok b) :
    b = truthAt more key fallback := by
  unfold flag at h
  unfold truthAt
  split at h
  · rename_i hnone
    cases h
    rw [hnone]
  · rename_i hsome
    cases h
    rw [hsome]
  · cases h

theorem mapM_textOf {tags : List Value} {texts : List String} (h : tags.mapM textOf = .ok texts) :
    texts = tags.map Value.plain := by
  induction tags generalizing texts with
  | nil =>
    cases h
    rfl
  | cons t tags ih =>
    rw [List.mapM_cons] at h
    obtain ⟨s, hs, h⟩ := ok_of_bind h
    obtain ⟨rest, hrest, h⟩ := ok_of_bind h
    cases h
    rw [textOf_ok hs, ih hrest]
    rfl

/-- **An entry that is read is the variable that it stands for.** -/
theorem ofEntry_declared (h : ofEntry scope owner k v = .ok x) :
    x = declared scope owner (k, v) ∧ Template.isIdentifier k.plain.toList = true := by
  unfold ofEntry at h
  obtain ⟨name, hname, h⟩ := ok_of_bind h
  obtain rfl := textOf_ok hname
  dsimp only at h
  split_ifs at h with hid
  · cases h
  obtain ⟨⟨w, more⟩, hoptions, h⟩ := ok_of_bind h
  obtain ⟨rfl, rfl⟩ := options_ok hoptions
  obtain ⟨tags, htags, h⟩ := ok_of_bind h
  obtain ⟨text, htext, h⟩ := ok_of_bind h
  obtain ⟨isEnabled, henabled, h⟩ := ok_of_bind h
  obtain ⟨isSecret, hsecret, h⟩ := ok_of_bind h
  obtain ⟨texts, htexts, h⟩ := ok_of_bind h
  cases h
  refine ⟨?_, by simpa using hid⟩
  rw [valueText_ok htext, flag_ok henabled, flag_ok hsecret, mapM_textOf htexts, tagsOf_ok htags,
    List.map_map]
  rfl

/-- Entries that are read are the variables that they stand for, in their order. -/
theorem ofEntries_declared (h : ofEntries scope owner entries = .ok vs) :
    vs = entries.map (declared scope owner) ∧ AreNamed entries := by
  induction entries generalizing vs with
  | nil =>
    cases h
    exact ⟨rfl, by simp [AreNamed]⟩
  | cons entry entries ih =>
    obtain ⟨x, hx, h⟩ := ok_of_bind h
    obtain ⟨rest, hrest, h⟩ := ok_of_bind h
    cases h
    obtain ⟨rfl, hid⟩ := ofEntry_declared hx
    obtain ⟨rfl, hnamed⟩ := ih hrest
    exact ⟨rfl, List.forall_mem_cons.2 ⟨hid, hnamed⟩⟩

theorem variablesOf_declared {v? : Option Value} (h : variablesOf scope owner v? = .ok vs) :
    vs = (entriesIn (v?.getD .null)).map (declared scope owner) ∧
      AreNamed (entriesIn (v?.getD .null)) := by
  unfold variablesOf at h
  split at h
  · cases h
    exact ⟨rfl, by simp [AreNamed, entriesIn]⟩
  · cases h
    exact ⟨rfl, by simp [AreNamed, entriesIn]⟩
  · exact ofEntries_declared h
  · cases h

/-! ### Groups -/

theorem putGroup_owners (o : String) (vs : List Variable) (groups : Groups) :
    (putGroup o vs groups).map Prod.fst =
      if o ∈ groups.map Prod.fst then groups.map Prod.fst else groups.map Prod.fst ++ [o] := by
  refine map_put (putGroup o vs) rfl (fun g r => ?_) groups
  rw [putGroup]
  by_cases hg : g.1 = o
  · rw [if_pos (beq_iff_eq.2 hg), if_pos hg, List.map_cons, hg]
  · rw [if_neg (by simpa using hg), if_neg hg, List.map_cons]

/-- A group takes the place of the one that its owner had. -/
theorem putGroup_perm (o : String) (vs : List Variable) (h : (groups.map Prod.fst).Nodup) :
    (putGroup o vs groups).Perm ((groups.filter fun g => g.1 != o) ++ [(o, vs)]) := by
  induction groups with
  | nil => exact .refl _
  | cons g r ih =>
    rw [List.map_cons, List.nodup_cons] at h
    rw [putGroup]
    by_cases hg : g.1 = o
    · have hr : r.filter (fun g => g.1 != o) = r := List.filter_eq_self.2 fun y hy =>
        bne_iff_ne.2 fun hyo => h.1 (List.mem_map.2 ⟨y, hy, hyo.trans hg.symm⟩)
      rw [if_pos (beq_iff_eq.2 hg), List.filter_cons_of_neg (by simp [hg]), hr, hg]
      exact (List.perm_append_singleton (o, vs) r).symm
    · rw [if_neg (by simpa using hg), List.filter_cons_of_pos (by simpa using hg)]
      exact (ih h.2).cons g

theorem putGroup_fresh (o : String) (vs : List Variable) (h : o ∉ groups.map Prod.fst) :
    putGroup o vs groups = groups ++ [(o, vs)] := by
  induction groups with
  | nil => rfl
  | cons g r ih =>
    rw [List.map_cons, List.mem_cons, not_or] at h
    rw [putGroup, if_neg (by simpa using Ne.symm h.1), ih h.2]
    rfl

/-- The first of the groups is put, and then the others. -/
theorem groupsOf_cons {g : Value × Value} (h : groupsOf scope groups (g :: gs) = .ok groups') :
    groupsOf scope (putGroup (idText g) (groupOf scope g).2 groups) gs = .ok groups' ∧
      AreNamed (entriesIn g.2) := by
  obtain ⟨o, ho, h⟩ := ok_of_bind h
  obtain ⟨vs, hvs, h⟩ := ok_of_bind h
  obtain rfl := textOf_ok ho
  obtain ⟨rfl, hnamed⟩ := variablesOf_declared hvs
  exact ⟨h, hnamed⟩

theorem groupsOf_named (h : groupsOf scope groups gs = .ok groups') :
    ∀ g ∈ gs, AreNamed (entriesIn g.2) := by
  induction gs generalizing groups with
  | nil => simp
  | cons g gs ih =>
    obtain ⟨hrest, hnamed⟩ := groupsOf_cons h
    exact List.forall_mem_cons.2 ⟨hnamed, ih hrest⟩

/-- Owners stand in the order in which they are named first. -/
theorem groupsOf_owners (ids : List String) (hids : groups.map Prod.fst = ids.eraseDups)
    (h : groupsOf scope groups gs = .ok groups') :
    groups'.map Prod.fst = (ids ++ gs.map idText).eraseDups := by
  induction gs generalizing groups ids with
  | nil =>
    cases h
    rw [List.map_nil, List.append_nil, hids]
  | cons g gs ih =>
    have hput : (putGroup (idText g) (groupOf scope g).2 groups).map Prod.fst =
        (ids ++ [idText g]).eraseDups := by
      rw [putGroup_owners, hids, List.eraseDups_append]
      by_cases hg : idText g ∈ ids
      · rw [if_pos (List.mem_eraseDups.2 hg)]
        simp [List.removeAll, hg]
      · rw [if_neg (mt List.mem_eraseDups.1 hg)]
        simp [List.removeAll, hg, List.eraseDups_cons]
    rw [ih _ hput (groupsOf_cons h).1, List.append_assoc]
    rfl

/-- **What is left of groups: those that no later one replaces.** -/
theorem groupsOf_perm (h : groupsOf scope groups gs = .ok groups')
    (hnodup : (groups.map Prod.fst).Nodup) :
    groups'.Perm ((groups.filter fun x => x.1 ∉ gs.map idText) ++
      (standing gs).map (groupOf scope)) := by
  induction gs generalizing groups with
  | nil =>
    cases h
    simp [standing]
  | cons g gs ih =>
    have hput := putGroup_perm (idText g) (groupOf scope g).2 hnodup
    have hnodup' : ((putGroup (idText g) (groupOf scope g).2 groups).map Prod.fst).Nodup := by
      rw [putGroup_owners]
      exact nodup_insert hnodup
    have hrest := ih (groupsOf_cons h).1 hnodup'
    have hleft := hput.filter fun x => decide (x.1 ∉ gs.map idText)
    have hfilter : (groups.filter fun x => x.1 ∉ (g :: gs).map idText) =
        (groups.filter fun x => x.1 != idText g).filter fun x => x.1 ∉ gs.map idText := by
      rw [List.filter_filter]
      congr 1
      funext x
      rw [Bool.eq_iff_iff]
      simp [and_comm]
    refine hrest.trans ((hleft.append_right _).trans ?_)
    rw [List.filter_append, hfilter, List.append_assoc, standing]
    by_cases hg : idText g ∈ gs.map idText
    · rw [if_pos hg, List.filter_cons_of_neg (by simpa using hg)]
      exact .refl _
    · rw [if_neg hg, List.filter_cons_of_pos (by simpa using hg)]
      exact .refl _

/-- Where the texts of all ids differ the groups are as they are written. -/
theorem groupsOf_whole (h : groupsOf scope groups gs = .ok groups')
    (hnodup : (groups.map Prod.fst ++ gs.map idText).Nodup) :
    groups' = groups ++ gs.map (groupOf scope) := by
  induction gs generalizing groups with
  | nil =>
    cases h
    exact (List.append_nil _).symm
  | cons g gs ih =>
    have hg : idText g ∉ groups.map Prod.fst := fun hm =>
      (List.nodup_append.1 hnodup).2.2 _ hm _ List.mem_cons_self rfl
    have hput := putGroup_fresh (idText g) (groupOf scope g).2 hg
    have hnodup' : ((groups ++ [groupOf scope g]).map Prod.fst ++ gs.map idText).Nodup := by
      rw [List.map_append, List.append_assoc]
      exact hnodup
    have hrest := (groupsOf_cons h).1
    rw [hput] at hrest
    rw [ih hrest hnodup', List.append_assoc]
    rfl

theorem keepsGroups_of_groups {v? : Option Value} (h : Declarations.groups scope v? = .ok groups) :
    KeepsGroups scope (entriesIn (v?.getD .null)) groups := by
  have hread : groupsOf scope [] (entriesIn (v?.getD .null)) = .ok groups := by
    unfold Declarations.groups at h
    split at h
    · exact h
    · exact h
    · exact h
    · cases h
  refine ⟨?_, ?_, fun hn => ?_, groupsOf_named hread⟩
  · exact groupsOf_owners [] rfl hread
  · exact groupsOf_perm hread List.nodup_nil
  · exact groupsOf_whole hread hn

/-! ### How many variables there are -/

theorem entryCount_standing_le (gs : List (Value × Value)) :
    entryCount (standing gs) ≤ entryCount gs := by
  induction gs with
  | nil => exact le_rfl
  | cons g gs ih =>
    rw [standing, entryCount_cons]
    split_ifs
    · omega
    · rw [entryCount_cons]
      omega

/-- No entry is lost just if no group with entries is replaced. -/
theorem entryCount_standing_iff : entryCount (standing gs) = entryCount gs ↔
    gs.Pairwise fun g h => idText g = idText h → entriesIn g.2 = [] := by
  induction gs with
  | nil => simp [standing]
  | cons g gs ih =>
    have hle := entryCount_standing_le gs
    rw [List.pairwise_cons, standing, entryCount_cons]
    by_cases hg : idText g ∈ gs.map idText
    · have hempty : (∀ h ∈ gs, idText g = idText h → entriesIn g.2 = []) ↔ entriesIn g.2 = [] := by
        obtain ⟨h, hh, hgh⟩ := List.mem_map.1 hg
        exact ⟨fun hall => hall h hh hgh.symm, fun he _ _ _ => he⟩
      rw [if_pos hg, hempty, ← ih, ← List.length_eq_zero_iff]
      omega
    · have hnone : ∀ h ∈ gs, idText g = idText h → entriesIn g.2 = [] := fun h hh hgh =>
        absurd (List.mem_map.2 ⟨h, hh, hgh.symm⟩) hg
      rw [if_neg hg, entryCount_cons, ← ih]
      exact ⟨fun he => ⟨hnone, by omega⟩, fun he => by rw [he.2]⟩

theorem KeepsGroups.length (h : KeepsGroups scope gs groups) :
    (groups.flatMap Prod.snd).length = entryCount (standing gs) := by
  rw [(h.kept.flatMap_right _).length_eq, List.flatMap_map]
  unfold entryCount groupOf
  rw [List.length_flatMap, List.length_flatMap]
  simp only [List.length_map]

/-! ### The whole file -/

/-- What stands in the section of the variables. -/
theorem sectionOf_ok (h : sectionOf entries = .ok parts) :
    parts = entriesAt entries "variables" :=
  entriesAt_ok h

/-- **What is read from a mapping is what its entries stand for**, and all of them are there just if
no group with entries is followed by one of the same text of its id. -/
theorem ofValue_keeps {source : Option String} {d : Declarations}
    (h : ofValue source (.map entries) = .ok d) :
    let parts := entriesAt entries "variables"
    d.source = source ∧ d.Keeps parts ∧
      (d.all.length = declaredCount parts ↔ ∀ part ∈ ["profiles", "rules"],
        (entriesAt parts part).Pairwise fun g g' => idText g = idText g' → entriesIn g.2 = []) := by
  obtain ⟨_, hentries, h⟩ := ok_of_bind h
  cases hentries
  obtain ⟨parts, hparts, h⟩ := ok_of_bind h
  obtain rfl := sectionOf_ok hparts
  obtain ⟨-, -, h⟩ := ok_of_bind h
  obtain ⟨system, hsystem, h⟩ := ok_of_bind h
  obtain ⟨global, hglobal, h⟩ := ok_of_bind h
  obtain ⟨profiles, hprofiles, h⟩ := ok_of_bind h
  obtain ⟨rules, hrules, h⟩ := ok_of_bind h
  cases h
  obtain ⟨rfl, hsystem'⟩ := variablesOf_declared hsystem
  obtain ⟨rfl, hglobal'⟩ := variablesOf_declared hglobal
  have hprofiles := keepsGroups_of_groups hprofiles
  have hrules := keepsGroups_of_groups hrules
  refine ⟨rfl, ⟨rfl, rfl, ⟨hsystem', hglobal'⟩, hprofiles, hrules⟩, ?_⟩
  have hleP := entryCount_standing_le (entriesAt (entriesAt entries "variables") "profiles")
  have hleR := entryCount_standing_le (entriesAt (entriesAt entries "variables") "rules")
  rw [List.forall_mem_cons, List.forall_mem_singleton, ← entryCount_standing_iff,
    ← entryCount_standing_iff]
  unfold all declaredCount
  rw [List.length_append, List.length_append, List.flatMap_append, List.length_append,
    hprofiles.length, hrules.length, List.length_map, List.length_map]
  unfold entriesAt at hleP hleR ⊢
  omega

/-- Two ids of which the texts are one: the variables of the first group are gone. -/
theorem group_replaced :
    let profiles : List (Value × Value) :=
      [(.int 1, .map [(.text "A", .text "x")]), (.text "1", .map [(.text "B", .text "y")])]
    let entries : List (Value × Value) :=
      [(.text "variables", .map [(.text "profiles", .map profiles)])]
    ∃ d, ofValue none (.map entries) = .ok d ∧ d.all.map Variable.name = ["B"] ∧
      d.Keeps (entriesAt entries "variables") ∧
      d.all.length ≠ declaredCount (entriesAt entries "variables") := by
  intro profiles entries
  have hnames : (ofValue none (.map entries)).toOption.map (fun d => d.all.map Variable.name) =
      some ["B"] := by decide +kernel
  cases h : ofValue none (.map entries) with
  | error f =>
    rw [h] at hnames
    cases hnames
  | ok d =>
    rw [h] at hnames
    have hall : d.all.map Variable.name = ["B"] := Option.some.inj hnames
    obtain ⟨-, hkeeps, hlength⟩ := ofValue_keeps h
    refine ⟨d, rfl, hall, hkeeps, fun hcount => ?_⟩
    have hpairs := (List.pairwise_cons.1 (hlength.1 hcount "profiles" List.mem_cons_self)).1
    exact absurd (hpairs _ List.mem_cons_self (by decide +kernel)) (by simp [entriesIn])

end Declarations
end Stencil
