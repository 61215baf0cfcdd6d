import GameBundle.Build.Entities
import GameBundle.Proofs.Build.Lookups
import GameBundle.Proofs.Build.Termination

set_option autoImplicit false

/-! # How a compilation writes

Whatever is compiled on a map, in whatever order, and whether it succeeds or not: the state changes
by a few kinds of steps only. A text or a dialog is stored, a script is claimed, listed and
filled, or an entity gets the number of a script. `Writes` lists these steps with all that is known
when one of them is made, and `Follows` says that one state leads to another by such steps. A
property of states that each of them keeps is kept by every compilation. -/

namespace GameBundle

/-! ## Settled results -/

/-- The step gives `a` from now on and changes nothing. -/
def Settled {α : Type} (x : Step MapState α) (a : α) (s : MapState) : Prop :=
  ∀ u, Later s u → Yields x u a u

theorem Settled.mono {α : Type} {x : Step MapState α} {a : α} {s t : MapState}
    (h : Settled x a s) (hst : Later s t) : Settled x a t := fun u hu => h u (hst.trans hu)

theorem Settled.now {α : Type} {x : Step MapState α} {a : α} {s : MapState} (h : Settled x a s) :
    Yields x s a s := h s (.refl s)

/-- What is settled does not change. -/
theorem Settled.unique {α : Type} {x : Step MapState α} {a b : α} {s : MapState}
    (ha : Settled x a s) (hb : Settled x b s) : a = b := by
  have heq := ha.now.symm.trans hb.now
  cases heq
  rfl

/-! ## The bytes of a record -/

/-- The bytes of a script. -/
def composeScript (input : Input) (compile : String → Step MapState UInt16) (name : String)
    (actions : Script) : Step MapState Bytes := do
  let header ← scriptHeader name actions.length
  let instructions ← actions.mapM (encodeAction input compile)
  return instructions.foldl (· ++ ·) header

/-- The bytes of a dialog that is known by `key`. -/
def composeDialog (compile : String → Step MapState UInt16) (key name : String)
    (screens : List Screen) : Step MapState Bytes := do
  let header ← Record.encode 36 [.chars key 32, .long (UInt32.ofNat screens.length)]
  let bodies ← screens.zipIdx.mapM fun (screen, i) =>
    buildScreen compile screen s!"dialog \"{name}\" screen {i}"
  return bodies.foldl (· ++ ·) header

/-- The bytes of a serial dialog. -/
def composeSerialDialog (compile : String → Step MapState UInt16) (name : String)
    (dialog : SerialDialog) : Step MapState Bytes := do
  let message ← internOnMap .strings ("\n".intercalate dialog.messages)
  let responses ← dialog.answers.responses.mapM (buildResponse compile)
  Record.encode (36 + 4 * dialog.answers.responses.length) <|
    [.chars (serialDialogKey name) 32, .word message, .byte dialog.answers.code,
      .byte (UInt8.ofNat dialog.answers.responses.length)] ++ responses.flatten

/-- The actions that a script of the table is compiled from. -/
def HasActions (input : Input) (name : String) (actions : Script) : Prop :=
  name ≠ nullScript ∧ ∃ script, input.definitions.scripts.find? name = some script ∧
    expandCopies input.definitions.scripts name script = .ok actions

/-! ## Steps -/

/-- The project with one more record. -/
def Project.add (p : Project) (kind : Kind) (record : Record) : Project :=
  { p with tables := p.tables.add kind record }

/-- The project with the bytes of one record. -/
def Project.fill (p : Project) (kind : Kind) (index : Nat) (bytes : Bytes) : Project :=
  { p with tables := p.tables.set kind index bytes }

/-- The number of the next record. -/
def Project.next (p : Project) (kind : Kind) : UInt16 := UInt16.ofNat (p.tables.count kind)

/-- One step of a compilation. -/
inductive Writes (input : Input) (s : MapState) : MapState → Prop
  /-- A text is stored. -/
  | text (pool : Pool) (text value : String)
      (made : templatize (some s.map) s.project.pools.gameVariables text = .ok value)
      (new : (s.project.pools.get pool).find? value = none)
      (within : pool = .gameVariables → s.project.pools.gameVariables.size < variableLimit)
      (room : s.project.tables.count pool.kind < UInt16.size) :
      Writes input s ⟨s.map, { s.project.add pool.kind ⟨value, some (encodeText value)⟩ with
        pools := s.project.pools.put pool value (s.project.next pool.kind) }⟩
  /-- A script claims its record. -/
  | claim (name : String) (actions : Script) (source : HasActions input name actions)
      (new : s.map.scriptNumber? name = none)
      (room : s.project.tables.count .scripts < UInt16.size) :
      Writes input s ⟨s.map, s.project.add .scripts ⟨name, none⟩⟩
  /-- A script that has claimed its record is listed, or the one that does nothing. -/
  | list (name : String) (global number : UInt16) (new : s.map.scriptNumber? name = none)
      (next : s.map.nextScript = .ok number)
      (claimed : name = nullScript ∧ global = 0 ∨
        (s.project.tables.records .scripts)[global.toNat]? = some ⟨name, none⟩) :
      Writes input s ⟨s.map.listScript name global number, s.project⟩
  /-- A claimed record gets its instructions. -/
  | script (index : Nat) (name : String) (actions : Script) (bytes : Bytes)
      (source : HasActions input name actions)
      (claimed : (s.project.tables.records .scripts)[index]? = some ⟨name, none⟩)
      (settled : Settled (composeScript input (compileScript input) name actions) bytes s) :
      Writes input s ⟨s.map, s.project.fill .scripts index bytes⟩
  /-- A dialog is stored. -/
  | dialog (name : String) (screens : List Screen) (bytes : Bytes)
      (source : input.definitions.dialogs.find? name = some screens)
      (new : s.project.dialogs.find? (dialogKey s.map.name name) = none)
      (settled : Settled (composeDialog (compileScript input) (dialogKey s.map.name name) name
        screens) bytes s)
      (room : s.project.tables.count .dialogs < UInt16.size) :
      Writes input s ⟨s.map, { s.project.add .dialogs ⟨dialogKey s.map.name name, some bytes⟩ with
        dialogs := s.project.dialogs.put (dialogKey s.map.name name)
          (s.project.next .dialogs) }⟩
  /-- A serial dialog is stored. -/
  | serialDialog (name : String) (dialog : SerialDialog) (bytes : Bytes)
      (source : input.definitions.serialDialogs.find? name = some dialog)
      (within : dialog.answers.responses.length ≤ responseLimit)
      (new : s.project.serialDialogs.find? name = none)
      (settled : Settled (composeSerialDialog (compileScript input) name dialog) bytes s)
      (room : s.project.tables.count .serialDialogs < UInt16.size) :
      Writes input s ⟨s.map, {
        s.project.add .serialDialogs ⟨serialDialogKey name, some bytes⟩ with
        serialDialogs := s.project.serialDialogs.put name (s.project.next .serialDialogs) }⟩
  /-- An entity of the map gets the number of one of its scripts. -/
  | wire (global number : UInt16) (offset : Nat) (name script : String) (old new : Bytes)
      (own : global ∈ s.map.entities)
      (slot : offset = Entity.interactOffset ∨ offset = Entity.tickOffset)
      (record : (s.project.tables.records .entities)[global.toNat]? = some ⟨name, some old⟩)
      (listed : s.map.scriptNumber? script = some number)
      (patched : old.patchWord offset number = .ok new) :
      Writes input s ⟨s.map, s.project.fill .entities global.toNat new⟩

/-- Steps of a compilation lead from one state to the other. -/
def Follows (input : Input) : MapState → MapState → Prop := Relation.ReflTransGen (Writes input)

variable {input : Input} {s t u : MapState}

theorem Writes.later (h : Writes input s t) : Later s t := by
  have hproject : ∀ p : Project, (∀ pool, (s.project.pools.get pool).StaysIn (p.pools.get pool)) →
      s.project.dialogs.StaysIn p.dialogs → s.project.serialDialogs.StaysIn p.serialDialogs →
      p = { s.project with
        tables := p.tables
        pools := p.pools
        dialogs := p.dialogs
        serialDialogs := p.serialDialogs } → Later s ⟨s.map, p⟩ :=
    fun p hpools hdialogs hserial hrest => ⟨rfl, .refl _, hpools, hdialogs, hserial, hrest⟩
  cases h with
  | text pool text value made new within room =>
    refine hproject _ (fun other => ?_) (.refl _) (.refl _) rfl
    simp only [Pools.get_put]
    split
    · next heq =>
      subst heq
      exact .put new
    · exact .refl _
  | claim name actions source new room => exact .of_tables s _
  | list name global number new next claimed =>
    exact ⟨rfl, .put new, fun _ => .refl _, .refl _, .refl _, rfl⟩
  | script index name actions bytes source claimed settled => exact .of_tables s _
  | dialog name screens bytes source new settled room =>
    exact hproject _ (fun _ => .refl _) (.put new) (.refl _) rfl
  | serialDialog name dialog bytes source within new settled room =>
    exact hproject _ (fun _ => .refl _) (.refl _) (.put new) rfl
  | wire global number offset name script old new own slot record listed patched =>
    exact .of_tables s _

namespace Follows

theorem refl (s : MapState) : Follows input s s := Relation.ReflTransGen.refl

theorem step (h : Writes input s t) : Follows input s t := Relation.ReflTransGen.single h

theorem trans (hst : Follows input s t) (htu : Follows input t u) : Follows input s u :=
  Relation.ReflTransGen.trans hst htu

/-- **A property that every step keeps is kept.** -/
theorem keeps {P : MapState → Prop} (hstep : ∀ s t, Writes input s t → P s → P t)
    (h : Follows input s t) (hs : P s) : P t := by
  induction h with
  | refl => exact hs
  | tail _ hwrites ih => exact hstep _ _ hwrites ih

/-- A relation that every step is in is one that compilations are in. -/
theorem relates {R : MapState → MapState → Prop} (hrefl : ∀ s, R s s)
    (htrans : ∀ s t u, R s t → R t u → R s u) (hstep : ∀ s t, Writes input s t → R s t)
    (h : Follows input s t) : R s t :=
  h.keeps (fun t u hwrites hst => htrans s t u hst (hstep t u hwrites)) (hrefl s)

/-- **No name loses its number.** -/
theorem later (h : Follows input s t) : Later s t :=
  h.relates .refl (fun _ _ _ => .trans) fun _ _ => Writes.later

end Follows

/-- Steps of a compilation, which leave every record alone that was there before. -/
structure Proceeds (input : Input) (s t : MapState) : Prop where
  follows : Follows input s t
  kept : s.project.tables.Kept t.project.tables

namespace Proceeds

theorem refl (input : Input) (s : MapState) : Proceeds input s s := ⟨.refl s, .refl _⟩

theorem trans (hst : Proceeds input s t) (htu : Proceeds input t u) : Proceeds input s u :=
  ⟨hst.follows.trans htu.follows, hst.kept.trans htu.kept⟩

end Proceeds

end GameBundle
