import GameBundle.Proofs.Build.Replay
import GameBundle.Proofs.Build.Run

set_option autoImplicit false

/-! # Linked actions stay linked

The bytes of an action have the numbers of texts, scripts and dialogs in them. Once these numbers
are given out they stay what they are, whatever else is compiled, on this map or on another one, and
whether it succeeds or not. So an action that was encoded once is encoded to the same bytes again,
and there is nothing left to store.

The work in between is a list of errands. Among them are the ends of scripts and dialogs that were
begun earlier, since an action may have been encoded inside of a compilation that goes on. -/

namespace GameBundle

variable {input : Input}

/-! ## What a project remembers -/

/-- What the one project has by name, the other has under the same number. -/
structure Project.RememberedBy (p q : Project) : Prop where
  pools : ∀ pool, (p.pools.get pool).StaysIn (q.pools.get pool)
  dialogs : p.dialogs.StaysIn q.dialogs
  serialDialogs : p.serialDialogs.StaysIn q.serialDialogs
  rest : q = { p with
    tables := q.tables
    pools := q.pools
    dialogs := q.dialogs
    serialDialogs := q.serialDialogs }

namespace Project.RememberedBy

variable {p q : Project}

theorem refl (p : Project) : p.RememberedBy p := ⟨fun _ => .refl _, .refl _, .refl _, rfl⟩

/-- On a map that is not touched itself, all lookups have the same result. -/
theorem later (h : p.RememberedBy q) (map : MapContext) : Later ⟨map, p⟩ ⟨map, q⟩ where
  map := rfl
  numbers := .refl _
  pools := h.pools
  dialogs := h.dialogs
  serialDialogs := h.serialDialogs
  project := h.rest

end Project.RememberedBy

theorem Later.rememberedBy {s t : MapState} (h : Later s t) :
    s.project.RememberedBy t.project := ⟨h.pools, h.dialogs, h.serialDialogs, h.project⟩

theorem intern_remembers (pool : Pool) (map : Option MapContext) (raw : String) (p : Project) :
    Moves Project.RememberedBy (intern pool map raw) p := by
  apply (atomic_intern pool map raw).moves (.refl p)
  intro index q h
  simp only [intern, yields_bind, yields_get, yields_buildError] at h
  obtain ⟨_, _, ⟨rfl, rfl⟩, value, _, ⟨-, rfl⟩, h⟩ := h
  split at h
  · obtain ⟨-, rfl⟩ := yields_pure.1 h
    exact .refl p
  · next hnew =>
    split at h
    · simp at h
    · simp only [yields_bind, yields_onTables, Tables.yields_push, yields_modify, yields_pure] at h
      obtain ⟨_, _, ⟨_, ⟨-, rfl, rfl⟩, rfl⟩, _, _, rfl, rfl, rfl⟩ := h
      refine ⟨fun other => ?_, .refl _, .refl _, rfl⟩
      simp only [Pools.get_put]
      split
      · next heq =>
        subst heq
        exact .put hnew
      · exact .refl _

/-! ## Work on a map -/

/-- Something to be done on a map: a text, a script, an action or a dialog from start to end, or the
    last step of one that was begun before. -/
inductive Work
  | text (pool : Pool) (raw : String)
  | script (name : String)
  | action (a : Action)
  | dialog (name context : String)
  | serialDialog (name context : String)
  | finishScript (global : UInt16) (bytes : Bytes)
  | finishDialog (key : String) (bytes : Bytes)
  | finishSerialDialog (name : String) (bytes : Bytes)

/-- Do the work. -/
def Work.step (input : Input) : Work → Step MapState Unit
  | .text pool raw => do let _ ← internOnMap pool raw
  | .script name => do let _ ← compileScript input name
  | .action a => do let _ ← encodeAction input (compileScript input) a
  | .dialog name context => do let _ ← buildDialog input (compileScript input) name context
  | .serialDialog name context => do
    let _ ← buildSerialDialog input (compileScript input) name context
  | .finishScript global bytes => onProject (onTables (Tables.fill .scripts global bytes))
  | .finishDialog key bytes => do let _ ← storeDialog key bytes
  | .finishSerialDialog name bytes => do let _ ← storeSerialDialog name bytes

/-- What is left of a step when its result is not needed. -/
theorem Moves.discarded {σ α : Type} {R : σ → σ → Prop} {x : Step σ α} {s : σ} (h : Moves R x s) :
    Moves R (do let _ ← x) s := by
  unfold Moves at h ⊢
  rw [outcome_bind]
  rcases hx : outcome x s with ⟨e | a, t⟩
  · rw [hx] at h
    exact h
  · rw [hx] at h
    exact h

theorem Replays.later {α : Type} {x x' : Step MapState α} (h : Replays input x x')
    (s : MapState) : Moves Later x s := (h.proceeds s).imp fun hproceeds => hproceeds.follows.later

/-- A record that is added unless it is there changes no lookup but its own, which failed before. -/
theorem addOnce_later {kind : Kind} {find? : Project → Option UInt16} {record : String}
    {bytes : Bytes} {remember : UInt16 → Project → Project} {s : MapState}
    (hremember : find? s.project = none → ∀ index,
      Later s ⟨s.map, remember index (s.project.add kind ⟨record, some bytes⟩)⟩) :
    Moves Later (onProject (addOnce kind find? record bytes remember)) s := by
  apply (Atomic.onProject (atomic_addOnce _ _ _ _ _)).moves (.refl s)
  intro index t h
  obtain ⟨p, hp, rfl⟩ := yields_onProject.1 h
  rcases addOnce_cases hp with ⟨-, rfl⟩ | ⟨hnew, -, -, rfl⟩
  · exact .refl s
  · exact hremember hnew index

/-- **Work on a map changes no lookup**, whether it succeeds or not. -/
theorem Work.later (work : Work) (s : MapState) : Moves Later (work.step input) s := by
  cases work with
  | text pool raw =>
    have hreplays : Replays input (internOnMap pool raw) _ := internOnMap_replays pool raw
    exact (hreplays.later s).discarded
  | script name => exact ((compileScript_replays name).later s).discarded
  | action a => exact ((encodeAction_replays compileScript_replays a).later s).discarded
  | dialog name context =>
    exact ((buildDialog_replays compileScript_replays name context).later s).discarded
  | serialDialog name context =>
    exact ((buildSerialDialog_replays compileScript_replays name context).later s).discarded
  | finishScript global bytes => exact .of_tables s _
  | finishDialog key bytes =>
    refine (addOnce_later fun hnew index => ?_).discarded
    exact ⟨rfl, .refl _, fun _ => .refl _, .put hnew, .refl _, rfl⟩
  | finishSerialDialog name bytes =>
    refine (addOnce_later fun hnew index => ?_).discarded
    exact ⟨rfl, .refl _, fun _ => .refl _, .refl _, .put hnew, rfl⟩

/-! ## Errands -/

/-- Something to be done while a map is being built. -/
inductive Errand
  | here (work : Work)
  /-- Work on another map, whatever is known about it. -/
  | elsewhere (map : MapContext) (work : Work)
  | text (pool : Pool) (map : Option MapContext) (raw : String)

/-- Run an errand. -/
def Errand.step (input : Input) : Errand → Step MapState Unit
  | .here work => work.step input
  | .elsewhere map work => onProject (onMap map (work.step input))
  | .text pool map raw => do let _ ← onProject (intern pool map raw)

/-- The state after errands that are run one after the other. One that fails does not stop those
    that come after it. -/
def afterErrands (input : Input) (errands : List Errand) (s : MapState) : MapState :=
  errands.foldl (fun s errand => (outcome (errand.step input) s).2) s

theorem Errand.later (errand : Errand) (s : MapState) : Moves Later (errand.step input) s := by
  cases errand with
  | here work => exact work.later s
  | elsewhere map work =>
    have hwork : Moves Later (work.step input) ⟨map, s.project⟩ := work.later _
    exact hwork.rememberedBy.later s.map
  | text pool map raw =>
    have hintern := intern_remembers pool map raw s.project
    have honProject : Moves Later (onProject (intern pool map raw)) s := hintern.later s.map
    exact honProject.discarded

theorem afterErrands_later (input : Input) (errands : List Errand) (s : MapState) :
    Later s (afterErrands input errands s) := by
  induction errands generalizing s with
  | nil => exact .refl s
  | cons errand rest ih =>
    have hfirst : Later s (outcome (errand.step input) s).2 := errand.later s
    exact hfirst.trans (ih _)

/-! ## The main result -/

/-- **Linked actions stay linked.** An action that was encoded in any state has the same bytes in
    every state that errands lead to from there, and encoding it again changes nothing at all. -/
theorem encodeAction_linked {a : Action} {bytes : Bytes} {s t : MapState}
    (h : Yields (encodeAction input (compileScript input) a) s bytes t) (errands : List Errand) :
    Yields (encodeAction input (compileScript input) a) (afterErrands input errands t) bytes
      (afterErrands input errands t) := by
  have hsettled : Settled (encodeAction input (compileScript input) a) bytes t :=
    (encodeAction_replays compileScript_replays a).again s bytes t h
  exact hsettled _ (afterErrands_later input errands t)

/-- An action whose dialog has a response that leads back to a script with the same action. -/
def askRiddle : Action := ⟨"SHOW_SERIAL_DIALOG", .ofList [("serial_dialog", .string "riddle")]⟩

/-- The riddle of the example is asked again after another map has asked it and a text has failed,
    while the record of a script is still to be filled. -/
theorem askRiddle_linked : ∃ bytes t,
    Yields (encodeAction twoMaps (compileScript twoMaps) askRiddle)
      ⟨{ name := "town", index := 0 }, {}⟩ bytes t ∧
    let errands : List Errand :=
      [.elsewhere { name := "cave", index := 1 } (.action askRiddle),
        .here (.text .strings "$GOLD$"), .here (.finishScript 0 #[])]
    Yields (encodeAction twoMaps (compileScript twoMaps) askRiddle)
      (afterErrands twoMaps errands t) bytes (afterErrands twoMaps errands t) := by
  obtain ⟨bytes, hbytes⟩ : ∃ bytes,
      (outcome (encodeAction twoMaps (compileScript twoMaps) askRiddle)
        ⟨{ name := "town", index := 0 }, {}⟩).1 = .ok bytes := exists_of_isOk (by decide +kernel)
  have hencoded := yields_outcome hbytes
  exact ⟨bytes, _, hencoded, encodeAction_linked hencoded _⟩

end GameBundle
