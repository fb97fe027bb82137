/-
# What is told of malformed declarations

Declarations are read spot by spot, in the order in which they are written
(`spots`), up to the first spot that is not sound. What is found there is told
as a fault of the declarations, at their source. Only where telling it needs
something that cannot be done is it not: unknown keys of different families
have no order in which to list them, and an integer of too many digits cannot
be written, be it a key, a value, a tag, or the part of a value that is told
because it is no truth value (`Spot.Breaks`).

Key definitions: `Spot`, `Spot.IsSound`, `Spot.Breaks`, `spots`,
`ReadsSpots`.
Key theorems: `ofEntry_reads`, `groupsOf_reads`, `ofValue_reads`,
`ofValue_reports`.
-/
import Stencil.Proofs.Declarations
import Stencil.Proofs.Reading
import Stencil.Proofs.Value.Keys

namespace Stencil
namespace Declarations

open Value (unknownKeys lookup? CanBeTold)

/-! ### What is read -/

/-- A place of the data at which something is asked of it. -/
inductive Spot where
  /-- All of the data. -/
  | data (v : Value)
  /-- What stands under the key of the variables. -/
  | whole (v? : Option Value)
  /-- The keys of a mapping, where only some are allowed. -/
  | keys (allowed : List String) (entries : List (Value × Value))
  /-- The variables or the groups of a scope, or the variables of a group. -/
  | part (v? : Option Value)
  /-- The id of a group. -/
  | owner (id : Value)
  | name (key : Value)
  /-- What is said of a variable. -/
  | options (v : Value)
  | tags (v? : Option Value)
  /-- The value that a variable is given. -/
  | content (v : Value)
  /-- What stands under a key that is true or false. -/
  | flag (v? : Option Value)
  | tag (v : Value)

/-- A single value. -/
def IsScalar : Value → Prop
  | .null => False
  | .list _ => False
  | .map _ => False
  | _ => True

/-- What is asked for at a spot is there. -/
def Spot.IsSound : Spot → Prop
  | data v => ∃ entries, v = .map entries
  | whole v? => ∀ v, v? = some v → v.isTrue = true → ∃ entries, v = .map entries
  | keys allowed entries => unknownKeys allowed entries = []
  | part v? => ∀ v, v? = some v → v ≠ .null → ∃ entries, v = .map entries
  | owner id => id.isWritable = true
  | name key => key.isWritable = true ∧ Template.isIdentifier key.plain.toList = true
  | options v => ∀ entries, v = .map entries → (lookup? entries "value").isSome = true
  | tags v? => ∀ v, v? = some v → v.isTrue = true → ∃ items, v = .list items
  | content v => IsScalar v ∧ v.isWritable = true
  | flag v? => ∀ v, v? = some v → ∃ b, v = .bool b
  | tag v => v.isWritable = true

/-- What is wrong at a spot cannot be told. -/
def Spot.Breaks : Spot → Prop
  | keys allowed entries => ¬ CanBeTold (unknownKeys allowed entries)
  | owner id => id.isWritable = false
  | name key => key.isWritable = false
  | content v => IsScalar v ∧ v.isWritable = false
  | flag v? => ∃ v, v? = some v ∧ v.isWritable = false
  | tag v => v.isWritable = false
  | _ => False

theorem Spot.Breaks.not_isSound {s : Spot} (h : s.Breaks) : ¬ s.IsSound := by
  cases s with
  | keys allowed entries =>
    intro hs
    rw [Spot.IsSound] at hs
    exact h (hs ▸ Value.canBeTold_nil)
  | owner id => exact fun hs => Bool.false_ne_true (h.symm.trans hs)
  | name key => exact fun hs => Bool.false_ne_true (h.symm.trans hs.1)
  | content v => exact fun hs => Bool.false_ne_true (h.2.symm.trans hs.2)
  | flag v? =>
    obtain ⟨v, hv, hfalse⟩ := h
    intro hs
    obtain ⟨b, rfl⟩ := hs v hv
    cases hfalse
  | tag v => exact fun hs => Bool.false_ne_true (h.symm.trans hs)
  | _ => exact h.elim

/-- The keys of a section with variables. -/
def sectionKeys : List String := ["system", "global", "profiles", "rules"]

/-- The keys of what is said of a variable. -/
def optionKeys : List String := ["value", "enabled", "secret", "tags", "description"]

/-- The spots of an entry. -/
def entrySpots (entry : Value × Value) : List Spot :=
  let more := entriesIn entry.2
  [.name entry.1, .keys optionKeys more, .options entry.2, .tags (lookup? more "tags"),
    .content (contentIn entry.2), .flag (lookup? more "enabled"), .flag (lookup? more "secret")] ++
    (itemsAt more "tags").map .tag

/-- The spots of the variables of a scope or of a group. -/
def variableSpots (v? : Option Value) : List Spot :=
  .part v? :: (entriesIn (v?.getD .null)).flatMap entrySpots

/-- The spots of a group. -/
def groupSpots (g : Value × Value) : List Spot := .owner g.1 :: variableSpots (some g.2)

/-- The spots of the groups of a scope. -/
def groupedSpots (v? : Option Value) : List Spot :=
  .part v? :: (entriesIn (v?.getD .null)).flatMap groupSpots

/-- The spots of the data, in the order in which they are read. -/
def spots (v : Value) : List Spot :=
  let whole := lookup? (entriesIn v) "variables"
  let parts := entriesAt (entriesIn v) "variables"
  [.data v, .whole whole, .keys sectionKeys parts] ++ variableSpots (lookup? parts "system") ++
    variableSpots (lookup? parts "global") ++ groupedSpots (lookup? parts "profiles") ++
    groupedSpots (lookup? parts "rules")

/-- The outcome of reading spots in their order. -/
abbrev ReadsSpots {α : Type} (spots : List Spot) (a : Except Fault α) : Prop :=
  Reads Spot.IsSound Spot.Breaks Fault.isReported spots a

variable {scope : Scope} {owner : Option String} {name key : String} {k v w : Value}
  {entries more : List (Value × Value)} {v? : Option Value}

/-! ### Single spots -/

theorem textOf_reads {s : Spot} (hs : s.IsSound ↔ v.isWritable = true)
    (hb : s.Breaks ↔ v.isWritable = false) : ReadsSpots [s] (textOf v) := by
  unfold textOf
  split_ifs with h
  · exact .cons (hs.2 h) .nil
  · exact .broken (fun hsound => h (hs.1 hsound)) (hb.2 (eq_false_of_ne_true h)) rfl

/-- **Unknown keys are told if they have an order and can be written.** -/
theorem checkKeys_reads (fault : List Value → Fault) (hfault : ∀ ks, (fault ks).isReported = true)
    (allowed : List String) (entries : List (Value × Value)) :
    ReadsSpots [.keys allowed entries] (checkKeys fault allowed entries) := by
  refine Value.allowOnly_reads Iff.rfl Iff.rfl (fun _ => rfl) fun keys => ?_
  unfold listing
  cases hw : keys.all Value.isWritable with
  | false => rfl
  | true => exact hfault keys

theorem tagsOf_reads (name : String) (v? : Option Value) :
    ReadsSpots [.tags v?] (tagsOf name v?) := by
  unfold tagsOf
  refine .shaped [] Iff.rfl id ?_ fun v hv => ?_
  · rintro v ⟨items, rfl⟩
    exact ⟨items, rfl⟩
  · cases v with
    | list items => exact absurd ⟨items, rfl⟩ hv
    | _ => exact ⟨_, rfl, rfl⟩

theorem valueText_reads (name : String) (v : Value) :
    ReadsSpots [.content v] (valueText name v) := by
  have hnone : ∀ v, ¬ IsScalar v →
      ReadsSpots (α := String) [.content v] (.error (.notScalar name)) :=
    fun v hv => .reported (fun h => hv h.1) (fun h => hv h.1) rfl
  have htext : ∀ v, IsScalar v → ReadsSpots [.content v] (textOf v) := fun v hv =>
    textOf_reads (and_iff_right hv) (and_iff_right hv)
  cases v with
  | null => exact hnone _ id
  | list => exact hnone _ id
  | map => exact hnone _ id
  | bool b => exact .cons ⟨trivial, rfl⟩ .nil
  | _ => exact htext _ trivial

theorem flag_reads (name : String) (entries : List (Value × Value)) (key : String)
    (fallback : Bool) :
    ReadsSpots [.flag (lookup? entries key)] (flag name entries key fallback) := by
  unfold flag
  split
  · rename_i hnone
    exact .cons (fun v hv => nomatch hnone.symm.trans hv) .nil
  · rename_i b hsome
    exact .cons (fun v hv => ⟨b, Option.some.inj (hv.symm.trans hsome)⟩) .nil
  · rename_i v hbool hsome
    have hbad : ¬ (Spot.flag (lookup? entries key)).IsSound := fun h => by
      obtain ⟨b, rfl⟩ := h v hsome
      exact hbool b rfl
    split_ifs with hw
    · refine .reported hbad ?_ rfl
      rintro ⟨w, hvw, hfalse⟩
      obtain rfl := Option.some.inj (hsome.symm.trans hvw)
      exact absurd (hw.symm.trans hfalse) (by decide)
    · exact .broken hbad ⟨v, hsome, eq_false_of_ne_true hw⟩ rfl

/-! ### Entries -/

theorem options_reads (name : String) (v : Value) :
    ReadsSpots [.keys optionKeys (entriesIn v), .options v] (options name v) := by
  cases v with
  | map entries =>
    have hkeys := checkKeys_reads (.unknownKeys name) (fun _ => rfl) optionKeys entries
    have hcheck : options name (.map entries) =
        checkKeys (.unknownKeys name) optionKeys entries >>= fun _ =>
          (lookup? entries "value").elim (.error (.noValue name)) fun value =>
            .ok (value, entries) := by
      rw [options]
      unfold optionKeys
      cases checkKeys (.unknownKeys name) _ entries with
      | error fault => rfl
      | ok _ => cases lookup? entries "value" <;> rfl
    rw [hcheck]
    show ReadsSpots ([.keys optionKeys entries] ++ [.options (.map entries)]) _
    refine hkeys.bind fun _ _ => ?_
    cases hvalue : lookup? entries "value" with
    | some value => exact .cons (fun es h => by cases h; rw [hvalue]; rfl) .nil
    | none =>
      refine .reported (fun h => ?_) id rfl
      have hsome := h entries rfl
      rw [hvalue] at hsome
      cases hsome
  | _ => exact .cons rfl (.cons (fun entries h => by cases h) .nil)

theorem tags_reads (tags : List Value) : ReadsSpots (tags.map .tag) (tags.mapM textOf) := by
  induction tags with
  | nil => exact .nil
  | cons t tags ih =>
    rw [List.mapM_cons]
    exact (textOf_reads Iff.rfl Iff.rfl).bind fun s _ => ih.map

/-- **An entry is read spot by spot.** -/
theorem ofEntry_reads (scope : Scope) (owner : Option String) (entry : Value × Value) :
    ReadsSpots (entrySpots entry) (ofEntry scope owner entry.1 entry.2) := by
  obtain ⟨k, v⟩ := entry
  unfold ofEntry entrySpots
  dsimp only
  by_cases hw : k.isWritable = true
  · have hname : textOf k = .ok k.plain := if_pos hw
    rw [hname]
    show ReadsSpots _ (ite _ _ _)
    by_cases hid : Template.isIdentifier k.plain.toList = true
    · rw [if_neg (by simpa using hid)]
      refine .cons ⟨hw, hid⟩ ?_
      refine (options_reads k.plain v).bind fun ⟨w, more⟩ hoptions => ?_
      obtain ⟨rfl, rfl⟩ := options_ok hoptions
      refine (tagsOf_reads k.plain _).bind fun tags htags => ?_
      refine (valueText_reads k.plain _).bind fun _ _ => ?_
      refine (flag_reads k.plain _ "enabled" true).bind fun _ _ => ?_
      refine (flag_reads k.plain _ "secret" false).bind fun _ _ => ?_
      rw [tagsOf_ok htags]
      exact (tags_reads _).map
    · rw [if_pos (by simpa using hid)]
      exact .reported (fun h => hid h.2) (fun h => absurd (hw.symm.trans h) (by decide)) rfl
  · have hname : textOf k = .error .unwritable := if_neg hw
    rw [hname]
    exact .broken (fun h => hw h.1) (eq_false_of_ne_true hw) rfl

theorem ofEntries_reads (scope : Scope) (owner : Option String) (entries : List (Value × Value)) :
    ReadsSpots (entries.flatMap entrySpots) (ofEntries scope owner entries) := by
  induction entries with
  | nil => exact .nil
  | cons entry entries ih =>
    rw [List.flatMap_cons]
    exact (ofEntry_reads scope owner entry).bind fun x _ => ih.map

/-! ### Parts of the section -/

/-- A part that is left out or empty gives what no entries give; any other has to be a mapping. -/
theorem part_reads {α : Type} (empty : α) {read : List (Value × Value) → Except Fault α}
    {ss : Value × Value → List Spot} {fault : Fault} (hfault : fault.isReported = true)
    (hread : ∀ entries, ReadsSpots (entries.flatMap ss) (read entries)) (v? : Option Value) :
    ReadsSpots (.part v? :: (entriesIn (v?.getD .null)).flatMap ss)
      (match v? with
        | none => .ok empty
        | some .null => .ok empty
        | some (.map entries) => read entries
        | some _ => .error fault) := by
  have hbad : ∀ v, v ≠ .null → (∀ entries, v ≠ .map entries) →
      ReadsSpots (α := α) (.part (some v) :: (entriesIn v).flatMap ss) (.error fault) := by
    intro v hn hm
    refine .reported (fun h => ?_) id hfault
    obtain ⟨entries, he⟩ := h v rfl hn
    exact hm entries he
  cases v? with
  | none => exact .cons (fun v hv => nomatch hv) .nil
  | some v =>
    cases v with
    | null => exact .cons (fun w hw hn => absurd (Option.some.inj hw).symm hn) .nil
    | map entries =>
      exact .cons (fun w hw _ => ⟨entries, (Option.some.inj hw).symm⟩) (hread entries)
    | _ => exact hbad _ nofun nofun

theorem variablesOf_reads (scope : Scope) (owner : Option String) (v? : Option Value) :
    ReadsSpots (variableSpots v?) (variablesOf scope owner v?) := by
  unfold variablesOf
  exact part_reads [] rfl (ofEntries_reads scope owner) v?

/-- **Groups are read one after another**, whatever groups there are already. -/
theorem groupsOf_reads (scope : Scope) (gs : List (Value × Value)) (groups : Groups) :
    ReadsSpots (gs.flatMap groupSpots) (groupsOf scope groups gs) := by
  induction gs generalizing groups with
  | nil => exact .nil
  | cons g gs ih =>
    rw [List.flatMap_cons]
    unfold groupSpots groupsOf
    exact (textOf_reads (s := .owner g.1) Iff.rfl Iff.rfl).bind fun owner _ =>
      (variablesOf_reads scope (some owner) (some g.2)).bind fun vs _ => ih _

theorem groups_reads (scope : Scope) (v? : Option Value) :
    ReadsSpots (groupedSpots v?) (Declarations.groups scope v?) := by
  unfold Declarations.groups
  exact part_reads [] rfl (fun gs => groupsOf_reads scope gs []) v?

/-! ### All of the data -/

theorem entriesOf_reads (v : Value) :
    ReadsSpots [.data v] ((Document.entriesOf v).mapError Fault.document) := by
  cases v with
  | map entries => exact .cons ⟨entries, rfl⟩ .nil
  | _ => exact .reported (fun h => nomatch h) id rfl

theorem sectionOf_reads (entries : List (Value × Value)) :
    ReadsSpots [.whole (lookup? entries "variables")] (sectionOf entries) :=
  .mapping Iff.rfl id rfl

theorem entriesOf_ok (h : (Document.entriesOf v).mapError Fault.document = .ok entries) :
    entries = entriesIn v := by
  cases v with
  | map es =>
    cases h
    rfl
  | _ => cases h

/-- **Declarations are read spot by spot.** -/
theorem ofValue_reads (source : Option String) (v : Value) :
    ReadsSpots (spots v) (ofValue source v) := by
  unfold spots ofValue
  simp only [List.append_assoc]
  refine (entriesOf_reads v).bind fun entries hentries => ?_
  obtain rfl := entriesOf_ok hentries
  refine (sectionOf_reads _).bind fun parts hparts => ?_
  obtain rfl := sectionOf_ok hparts
  refine (checkKeys_reads .unknownSections (fun _ => rfl) _ _).bind fun _ _ => ?_
  refine (variablesOf_reads .system none _).bind fun _ _ => ?_
  refine (variablesOf_reads .global none _).bind fun _ _ => ?_
  refine (groups_reads .profile _).bind fun _ _ => ?_
  exact (groups_reads .rule _).map

/-- **Malformed declarations are told as such, at their source, unless what is wrong at the first
spot that is not sound cannot be told.** -/
theorem ofValue_reports (source : Option String) (v : Value) :
    ((∃ d, ofValue source v = .ok d) ↔ ∀ s ∈ spots v, s.IsSound) ∧
      ((∃ f, ofValue source v = .error f ∧ f.isReported = false) ↔
        ∃ before s after, spots v = before ++ s :: after ∧ (∀ t ∈ before, t.IsSound) ∧ s.Breaks) ∧
      ∀ f, ofValue source v = .error f → f.isReported = true →
        f.placed source = Document.placed source f.message := by
  have hreads := ofValue_reads source v
  exact ⟨hreads.ok_iff, hreads.unreported_iff fun _ h => h.not_isSound, fun f _ hf => if_pos hf⟩

/-- Unknown sections of which one is a number and one a text. -/
example :
    let parts : List (Value × Value) := [(.int 1, .null), (.text "x", .null)]
    ∃ i, ofValue none (.map [(.text "variables", .map parts)]) = .error (.incomparable i) :=
  ⟨_, rfl⟩

end Declarations
end Stencil
