import GameBundle.Proofs.Build.Writes

set_option autoImplicit false

/-! # Compiling once more changes nothing

Every function that compiles something proceeds by the steps of `Writes`, leaves nothing unfinished
when it succeeds, and would have the same result without any change if it were called again. There
is one lemma for each function, under the assumption that the scripts it names are compiled that
way; `compileScript_replays` closes the circle by induction on the depth. -/

namespace GameBundle

variable {input : Input} {s t u : MapState} {α β : Type}

/-- Success leaves nothing unfinished, and `x'` gives the result again whenever it is called later.
    Whatever happens, earlier records are left alone. -/
structure Replays (input : Input) (x x' : Step MapState α) : Prop where
  proceeds : ∀ s, Moves (Proceeds input) x s
  completes : ∀ s a t, Yields x s a t → s.project.tables.Completes t.project.tables
  again : ∀ s a t, Yields x s a t → Settled x' a t

namespace Replays

/-! ## Putting steps together -/

theorem moves {x x' : Step MapState α} (h : Replays input x x') {a : α} (hx : Yields x s a t) :
    Proceeds input s t := (h.proceeds s).of_yields hx

/-- A step that changes nothing. -/
theorem still {x x' : Step MapState α} (hx : ∀ s, (outcome x s).2 = s)
    (hagain : ∀ s a u, Yields x s a s → Later s u → Yields x' u a u) : Replays input x x' := by
  have hsame : ∀ s a t, Yields x s a t → t = s := by
    intro s a t h
    have hs := hx s
    rwa [show outcome x s = (.ok a, t) from h] at hs
  refine ⟨fun s => ?_, fun s a t h => ?_, fun s a t h u hu => ?_⟩
  · unfold Moves
    rw [hx]
    exact Proceeds.refl input s
  · rw [hsame s a t h]
    exact .refl _
  · obtain rfl := hsame s a t h
    exact hagain t a u h hu

theorem pure (a : α) : Replays input (Pure.pure a) (Pure.pure a) := by
  refine still (fun _ => rfl) fun s b u h _ => ?_
  obtain ⟨rfl, -⟩ := yields_pure.1 h
  exact yields_pure.2 ⟨rfl, rfl⟩

theorem except (x : Except Failure α) : Replays input (liftM x) (liftM x) := by
  refine still (fun _ => by cases x <;> rfl) fun s b u h _ => ?_
  obtain ⟨hx, -⟩ := yields_except.1 h
  exact yields_except.2 ⟨hx, rfl⟩

theorem orReject (o : Option α) (e : BuildError) :
    Replays input (GameBundle.orReject o e) (GameBundle.orReject o e) := by
  refine still (fun _ => by cases o <;> rfl) fun s b u h _ => ?_
  obtain ⟨ho, -⟩ := yields_orReject.1 h
  exact yields_orReject.2 ⟨ho, rfl⟩

theorem reject (e : BuildError) {x' : Step MapState α} :
    Replays input (GameBundle.reject e) x' :=
  still (fun _ => rfl) fun _ _ _ h _ => (yields_reject.1 h).elim

theorem bind {x x' : Step MapState α} {f f' : α → Step MapState β} (hx : Replays input x x')
    (hf : ∀ a, Replays input (f a) (f' a)) : Replays input (x >>= f) (x' >>= f') := by
  refine ⟨fun s => ?_, fun s b u h => ?_, fun s b u h => ?_⟩
  · exact .bind (fun _ _ _ => .trans) (hx.proceeds s) fun a t _ => (hf a).proceeds t
  · obtain ⟨a, t, ha, hb⟩ := yields_bind.1 h
    exact (hx.completes s a t ha).trans ((hf a).completes t b u hb)
  · obtain ⟨a, t, ha, hb⟩ := yields_bind.1 h
    have hsettled := (hx.again s a t ha).mono ((hf a).moves hb).follows.later
    intro v hv
    exact yields_bind.2 ⟨a, v, hsettled v hv, (hf a).again t b u hb v hv⟩

/-- A step that looks something up first, and finds the same later. -/
theorem reads {f f' : MapState → Step MapState α} (hsame : ∀ s u, Later s u → f' u = f' s)
    (hf : ∀ s, Replays input (f s) (f' s)) : Replays input (get >>= f) (get >>= f') := by
  have hget : ∀ {b : α} {g : MapState → Step MapState α} {s t : MapState},
      Yields (get >>= g) s b t ↔ Yields (g s) s b t := by
    intro b g s t
    simp only [yields_bind, yields_get]
    constructor
    · rintro ⟨_, _, ⟨rfl, rfl⟩, h⟩
      exact h
    · exact fun h => ⟨_, _, ⟨rfl, rfl⟩, h⟩
  refine ⟨fun s => (hf s).proceeds s, fun s b t h => ?_, fun s b t h u hu => ?_⟩
  · exact (hf s).completes s b t (hget.1 h)
  · rw [hget] at h ⊢
    rw [hsame s u (((hf s).moves h).follows.later.trans hu)]
    exact (hf s).again s b t h u hu

theorem mapM {f f' : α → Step MapState β} {xs : List α}
    (hf : ∀ a ∈ xs, Replays input (f a) (f' a)) : Replays input (xs.mapM f) (xs.mapM f') := by
  induction xs with
  | nil => exact .pure []
  | cons a xs ih =>
    rw [List.mapM_cons, List.mapM_cons]
    refine .bind (hf a List.mem_cons_self) fun b => ?_
    exact .bind (ih fun x hx => hf x (List.mem_cons_of_mem _ hx)) fun bs => .pure _

theorem foldlM {f f' : β → α → Step MapState β} {xs : List α}
    (hf : ∀ b, ∀ a ∈ xs, Replays input (f b a) (f' b a)) (b : β) :
    Replays input (xs.foldlM f b) (xs.foldlM f' b) := by
  induction xs generalizing b with
  | nil => exact .pure b
  | cons a xs ih =>
    rw [List.foldlM_cons, List.foldlM_cons]
    refine .bind (hf b a List.mem_cons_self) fun b' => ?_
    exact ih (fun c x hx => hf c x (List.mem_cons_of_mem _ hx)) b'

end Replays

/-! ## Texts -/

/-- A text has a number afterwards. If it had none before, its record is added. -/
theorem internOnMap_writes (input : Input) {pool : Pool} {text : String} {index : UInt16}
    (h : Yields (internOnMap pool text) s index t) :
    TextNumber pool text index t ∧ Proceeds input s t ∧
      s.project.tables.Completes t.project.tables := by
  simp only [internOnMap, intern, yields_bind, yields_get, yields_onProject, yields_buildError] at h
  obtain ⟨_, _, ⟨rfl, rfl⟩, p, ⟨_, _, ⟨rfl, rfl⟩, value, _, ⟨hmade, rfl⟩, h⟩, rfl⟩ := h
  split at h
  · next found hfound =>
    obtain ⟨rfl, rfl⟩ := yields_pure.1 h
    exact ⟨⟨value, hmade, hfound⟩, Proceeds.refl input s, .refl _⟩
  · next hnew =>
    split at h
    · simp at h
    · next hwithin =>
      simp only [yields_bind, yields_onTables, Tables.yields_push, yields_modify, yields_pure] at h
      obtain ⟨_, _, ⟨_, ⟨hroom, rfl, rfl⟩, rfl⟩, _, _, rfl, rfl, rfl⟩ := h
      have hwrites : Writes input s _ := .text pool text value hmade hnew
        (fun hpool => Nat.lt_of_not_le fun hle => hwithin ⟨hpool, hle⟩) hroom
      refine ⟨⟨value, templatize_later hwrites.later hmade, ?_⟩,
        ⟨.step hwrites, .add (.refl _) _ _⟩, Tables.completes_add _ _ _ _⟩
      rw [Pools.get_put, if_pos rfl, Ordered.find?_put, if_pos rfl]

theorem atomic_intern (pool : Pool) (map : Option MapContext) (text : String) :
    Atomic (intern pool map text) := by
  refine .get_bind fun p => .except_bind fun value => ?_
  split
  · exact .pure _
  · refine .rejectIf _ (.bind_sure (.onTables Tables.atomic_push) fun index q => ?_)
    exact ⟨index, _, yields_bind.2 ⟨(), _, yields_modify.2 rfl, yields_pure.2 ⟨rfl, rfl⟩⟩⟩

theorem internOnMap_replays (pool : Pool) (text : String) :
    Replays input (internOnMap pool text) (internOnMap pool text) where
  proceeds s := by
    refine Atomic.moves (.get_bind fun _ => .onProject (atomic_intern _ _ _))
      (Proceeds.refl input s) fun index t h => ?_
    exact (internOnMap_writes input h).2.1
  completes _ _ _ h := (internOnMap_writes input h).2.2
  again _ _ _ h _ hu := ((internOnMap_writes input h).1.mono hu).yields

/-! ## Dialogs -/

/-- Scripts are compiled in such a way. -/
abbrev ReplaysScripts (input : Input) (compile : String → Step MapState UInt16) : Prop :=
  ∀ name, Replays input (compile name) (compileScript input name)

variable {compile : String → Step MapState UInt16}

theorem buildResponse_replays (hcompile : ReplaysScripts input compile) (r : Response) :
    Replays input (buildResponse compile r) (buildResponse (compileScript input) r) :=
  .bind (internOnMap_replays _ _) fun _ => .bind (hcompile _) fun _ => .pure _

/-- The parts of a screen that are not compiled depend on what is fixed while a map is built. -/
theorem fixedFields_later (h : Later s t) (screen : Screen) (context : String) :
    screen.fixedFields t.map t.project context = screen.fixedFields s.map s.project context := by
  rw [h.map, h.project]
  rfl

theorem buildScreen_replays (hcompile : ReplaysScripts input compile) (screen : Screen)
    (context : String) :
    Replays input (buildScreen compile screen context)
      (buildScreen (compileScript input) screen context) := by
  refine .reads (fun s u h => by rw [fixedFields_later h]) fun state => ?_
  refine .bind (.except _) fun fixed => .bind (internOnMap_replays _ _) fun title => ?_
  refine .bind (.mapM fun text _ => internOnMap_replays _ _) fun messages => ?_
  refine .bind (.mapM fun r _ => buildResponse_replays hcompile r) fun responses => ?_
  exact .except _

theorem composeDialog_replays (hcompile : ReplaysScripts input compile) (key name : String)
    (screens : List Screen) :
    Replays input (composeDialog compile key name screens)
      (composeDialog (compileScript input) key name screens) := by
  refine .bind (.except _) fun header => .bind (.mapM fun q _ => ?_) fun bodies => .pure _
  exact buildScreen_replays hcompile q.1 _

theorem composeSerialDialog_replays (hcompile : ReplaysScripts input compile) (name : String)
    (dialog : SerialDialog) :
    Replays input (composeSerialDialog compile name dialog)
      (composeSerialDialog (compileScript input) name dialog) := by
  refine .bind (internOnMap_replays _ _) fun message => ?_
  refine .bind (.mapM fun r _ => buildResponse_replays hcompile r) fun responses => ?_
  exact .except _

/-! ## Storing a dialog once -/

theorem atomic_addOnce (kind : Kind) (find? : Project → Option UInt16) (record : String)
    (bytes : Bytes) (remember : UInt16 → Project → Project) :
    Atomic (addOnce kind find? record bytes remember) := by
  refine .get_bind fun p => ?_
  split
  · exact .pure _
  · refine .bind_sure (.onTables Tables.atomic_push) fun index q => ?_
    exact ⟨index, _, yields_bind.2 ⟨(), _, yields_modify.2 rfl, yields_pure.2 ⟨rfl, rfl⟩⟩⟩

theorem addOnce_cases {kind : Kind} {find? : Project → Option UInt16} {record : String}
    {bytes : Bytes} {remember : UInt16 → Project → Project} {p q : Project} {index : UInt16}
    (h : Yields (addOnce kind find? record bytes remember) p index q) :
    (find? p = some index ∧ q = p) ∨
      (find? p = none ∧ p.tables.count kind < UInt16.size ∧ index = p.next kind ∧
        q = remember index (p.add kind ⟨record, some bytes⟩)) := by
  simp only [addOnce, yields_bind, yields_get] at h
  obtain ⟨_, _, ⟨rfl, rfl⟩, h⟩ := h
  split at h
  · next found hfound =>
    obtain ⟨rfl, rfl⟩ := yields_pure.1 h
    exact Or.inl ⟨hfound, rfl⟩
  · next hnew =>
    simp only [yields_bind, yields_onTables, Tables.yields_push, yields_modify, yields_pure] at h
    obtain ⟨_, _, ⟨_, ⟨hroom, rfl, rfl⟩, rfl⟩, _, _, rfl, rfl, rfl⟩ := h
    exact Or.inr ⟨hnew, hroom, rfl, rfl⟩

/-- The last step of building a dialog: use the record that is there, or add this one. -/
def storeDialog (key : String) (bytes : Bytes) : Step MapState UInt16 :=
  onProject <| addOnce .dialogs (·.dialogs.find? key) key bytes
    fun index project => { project with dialogs := project.dialogs.put key index }

/-- The last step of building a serial dialog. -/
def storeSerialDialog (name : String) (bytes : Bytes) : Step MapState UInt16 :=
  onProject <| addOnce .serialDialogs (·.serialDialogs.find? name) (serialDialogKey name) bytes
    fun index project => { project with serialDialogs := project.serialDialogs.put name index }

theorem storeDialog_writes {name : String} {screens : List Screen} {bytes : Bytes}
    {index : UInt16} (source : input.definitions.dialogs.find? name = some screens)
    (settled : Settled (composeDialog (compileScript input) (dialogKey s.map.name name) name
      screens) bytes s)
    (h : Yields (storeDialog (dialogKey s.map.name name) bytes) s index t) :
    t.project.dialogs.find? (dialogKey s.map.name name) = some index ∧ Proceeds input s t ∧
      s.project.tables.Completes t.project.tables := by
  obtain ⟨p, hp, rfl⟩ := yields_onProject.1 h
  rcases addOnce_cases hp with ⟨hfound, rfl⟩ | ⟨hnew, hroom, rfl, rfl⟩
  · exact ⟨hfound, Proceeds.refl input s, .refl _⟩
  · refine ⟨?_, ⟨.step (.dialog name screens bytes source hnew settled hroom),
      .add (.refl _) _ _⟩, Tables.completes_add _ _ _ _⟩
    simp only [Ordered.find?_put, if_pos]

theorem storeSerialDialog_writes {name : String} {dialog : SerialDialog} {bytes : Bytes}
    {index : UInt16} (source : input.definitions.serialDialogs.find? name = some dialog)
    (within : dialog.answers.responses.length ≤ responseLimit)
    (settled : Settled (composeSerialDialog (compileScript input) name dialog) bytes s)
    (h : Yields (storeSerialDialog name bytes) s index t) :
    t.project.serialDialogs.find? name = some index ∧ Proceeds input s t ∧
      s.project.tables.Completes t.project.tables := by
  obtain ⟨p, hp, rfl⟩ := yields_onProject.1 h
  rcases addOnce_cases hp with ⟨hfound, rfl⟩ | ⟨hnew, hroom, rfl, rfl⟩
  · exact ⟨hfound, Proceeds.refl input s, .refl _⟩
  · refine ⟨?_, ⟨.step (.serialDialog name dialog bytes source within hnew settled hroom),
      .add (.refl _) _ _⟩, Tables.completes_add _ _ _ _⟩
    simp only [Ordered.find?_put, if_pos]

/-! ## Building a dialog -/

/-- A dialog that has a record is not built again. -/
theorem yields_buildDialog_of_find? {name context : String} {index : UInt16}
    (h : s.project.dialogs.find? (dialogKey s.map.name name) = some index) :
    Yields (buildDialog input compile name context) s index s := by
  simp only [buildDialog, yields_bind, yields_get]
  refine ⟨s, s, ⟨rfl, rfl⟩, s, s, ⟨rfl, rfl⟩, ?_⟩
  rw [h]
  exact yields_pure.2 ⟨rfl, rfl⟩

/-- A dialog has a record already, or its screens are composed and the result is stored. -/
theorem buildDialog_cases {name context : String} {index : UInt16}
    (h : Yields (buildDialog input compile name context) s index t) :
    (s.project.dialogs.find? (dialogKey s.map.name name) = some index ∧ t = s) ∨
      ∃ screens bytes u, s.project.dialogs.find? (dialogKey s.map.name name) = none ∧
        input.definitions.dialogs.find? name = some screens ∧
        Yields (composeDialog compile (dialogKey s.map.name name) name screens) s bytes u ∧
        Yields (storeDialog (dialogKey s.map.name name) bytes) u index t := by
  simp only [buildDialog, yields_bind, yields_get] at h
  obtain ⟨_, _, ⟨rfl, rfl⟩, _, _, ⟨rfl, rfl⟩, h⟩ := h
  split at h
  · next found hfound =>
    obtain ⟨rfl, rfl⟩ := yields_pure.1 h
    exact Or.inl ⟨hfound, rfl⟩
  · next hnew =>
    simp only [yields_bind, yields_orReject] at h
    obtain ⟨screens, _, ⟨hscreens, rfl⟩, h⟩ := h
    split at h
    · simp at h
    · split at h
      · simp at h
      · simp only [yields_bind, yields_except] at h
        obtain ⟨header, _, ⟨hheader, rfl⟩, bodies, u, hbodies, hstore⟩ := h
        refine Or.inr ⟨screens, _, u, hnew, hscreens, ?_, hstore⟩
        exact yields_bind.2 ⟨header, s, yields_except.2 ⟨hheader, rfl⟩, yields_bind.2
          ⟨bodies, u, hbodies, yields_pure.2 ⟨rfl, rfl⟩⟩⟩

/-- What was composed for a dialog is settled when it is stored. -/
theorem storeDialog_composed (hcompile : ReplaysScripts input compile) {name : String}
    {screens : List Screen} {bytes : Bytes} {index : UInt16}
    (hscreens : input.definitions.dialogs.find? name = some screens)
    (hcompose : Yields (composeDialog compile (dialogKey s.map.name name) name screens) s bytes u)
    (hstore : Yields (storeDialog (dialogKey s.map.name name) bytes) u index t) :
    t.project.dialogs.find? (dialogKey s.map.name name) = some index ∧ Proceeds input u t ∧
      u.project.tables.Completes t.project.tables := by
  have hreplays := composeDialog_replays hcompile (dialogKey s.map.name name) name screens
  have hsettled := hreplays.again _ _ _ hcompose
  rw [← (hreplays.moves hcompose).follows.later.name] at hsettled hstore ⊢
  exact storeDialog_writes hscreens hsettled hstore

/-- **The key of a dialog leads to the record that was built or found for it.** -/
theorem buildDialog_finds (hcompile : ReplaysScripts input compile) {name context : String}
    {index : UInt16} (h : Yields (buildDialog input compile name context) s index t) :
    t.project.dialogs.find? (dialogKey s.map.name name) = some index := by
  rcases buildDialog_cases h with ⟨hfound, rfl⟩ | ⟨screens, bytes, u, -, hscreens, hcompose, hlast⟩
  · exact hfound
  · exact (storeDialog_composed hcompile hscreens hcompose hlast).1

theorem buildDialog_replays (hcompile : ReplaysScripts input compile) (name context : String) :
    Replays input (buildDialog input compile name context)
      (buildDialog input (compileScript input) name context) := by
  refine ⟨fun s => ?_, fun s index t h => ?_, fun s index t h u hu => ?_⟩
  · refine .get_bind (.get_bind ?_)
    split
    · exact Proceeds.refl input s
    · refine .orReject_bind (.refl input s) fun screens hscreens => .rejectIf (.refl input s) fun _ => ?_
      cases screens.findIdx? fun s => s.messages.isEmpty with
      | some screen => exact Proceeds.refl input s
      | none =>
        refine .except_bind (.refl input s) fun header hheader => ?_
        have hbodies := Replays.mapM fun (q : Screen × Nat) (_ : q ∈ screens.zipIdx) =>
          buildScreen_replays hcompile q.1 s!"dialog \"{name}\" screen {q.2}"
        refine .bind (fun _ _ _ => .trans) (hbodies.proceeds s) fun bodies u hyields => ?_
        refine (Atomic.onProject (atomic_addOnce _ _ _ _ _)).moves (.refl input u) fun index t h => ?_
        have hcompose : Yields (composeDialog compile (dialogKey s.map.name name) name screens) s
            (bodies.foldl (· ++ ·) header) u :=
          yields_bind.2 ⟨header, s, yields_except.2 ⟨hheader, rfl⟩, yields_bind.2
            ⟨bodies, u, hyields, yields_pure.2 ⟨rfl, rfl⟩⟩⟩
        exact (storeDialog_composed hcompile hscreens hcompose h).2.1
  · rcases buildDialog_cases h with ⟨-, rfl⟩ | ⟨screens, bytes, u, -, hscreens, hcompose, hlast⟩
    · exact .refl _
    · exact ((composeDialog_replays hcompile _ _ _).completes _ _ _ hcompose).trans
        (storeDialog_composed hcompile hscreens hcompose hlast).2.2
  · have hname : t.map.name = s.map.name := by
      rcases buildDialog_cases h with ⟨-, rfl⟩ | ⟨screens, bytes, v, -, hscreens, hcompose, hlast⟩
      · rfl
      · rw [(storeDialog_composed hcompile hscreens hcompose hlast).2.1.follows.later.name,
          ((composeDialog_replays hcompile _ _ _).moves hcompose).follows.later.name]
    refine yields_buildDialog_of_find? ?_
    rw [hu.name, hname]
    exact hu.dialogs _ _ (buildDialog_finds hcompile h)

/-! ## Building a serial dialog -/

theorem yields_buildSerialDialog_of_find? {name context : String} {index : UInt16}
    (h : s.project.serialDialogs.find? name = some index) :
    Yields (buildSerialDialog input compile name context) s index s := by
  simp only [buildSerialDialog, yields_bind, yields_get]
  refine ⟨s, s, ⟨rfl, rfl⟩, ?_⟩
  rw [h]
  exact yields_pure.2 ⟨rfl, rfl⟩

/-- A serial dialog has a record already, or it is composed and stored. -/
theorem buildSerialDialog_cases {name context : String} {index : UInt16}
    (h : Yields (buildSerialDialog input compile name context) s index t) :
    (s.project.serialDialogs.find? name = some index ∧ t = s) ∨
      ∃ dialog bytes u, s.project.serialDialogs.find? name = none ∧
        input.definitions.serialDialogs.find? name = some dialog ∧
        dialog.answers.responses.length ≤ responseLimit ∧
        Yields (composeSerialDialog compile name dialog) s bytes u ∧
        Yields (storeSerialDialog name bytes) u index t := by
  simp only [buildSerialDialog, yields_bind, yields_get] at h
  obtain ⟨_, _, ⟨rfl, rfl⟩, h⟩ := h
  split at h
  · next found hfound =>
    obtain ⟨rfl, rfl⟩ := yields_pure.1 h
    exact Or.inl ⟨hfound, rfl⟩
  · next hnew =>
    simp only [yields_bind, yields_orReject] at h
    obtain ⟨dialog, _, ⟨hdialog, rfl⟩, h⟩ := h
    split at h
    · simp at h
    · split at h
      · simp at h
      · split at h
        · simp at h
        · next hwithin =>
          simp only [yields_bind, yields_except] at h
          obtain ⟨message, u, hmessage, responses, v, hresponses, bytes, _, ⟨hbytes, rfl⟩,
            hstore⟩ := h
          refine Or.inr ⟨dialog, bytes, v, hnew, hdialog, Nat.not_lt.1 hwithin, ?_, hstore⟩
          exact yields_bind.2 ⟨message, u, hmessage, yields_bind.2 ⟨responses, v, hresponses,
            yields_except.2 ⟨hbytes, rfl⟩⟩⟩

theorem storeSerialDialog_composed (hcompile : ReplaysScripts input compile) {name : String}
    {dialog : SerialDialog} {bytes : Bytes} {index : UInt16}
    (hdialog : input.definitions.serialDialogs.find? name = some dialog)
    (hwithin : dialog.answers.responses.length ≤ responseLimit)
    (hcompose : Yields (composeSerialDialog compile name dialog) s bytes u)
    (hstore : Yields (storeSerialDialog name bytes) u index t) :
    t.project.serialDialogs.find? name = some index ∧ Proceeds input u t ∧
      u.project.tables.Completes t.project.tables :=
  storeSerialDialog_writes hdialog hwithin
    ((composeSerialDialog_replays hcompile name dialog).again _ _ _ hcompose) hstore

/-- **The name of a serial dialog leads to the record that was built or found for it.** -/
theorem buildSerialDialog_finds (hcompile : ReplaysScripts input compile) {name context : String}
    {index : UInt16} (h : Yields (buildSerialDialog input compile name context) s index t) :
    t.project.serialDialogs.find? name = some index := by
  rcases buildSerialDialog_cases h with ⟨hfound, rfl⟩ | ⟨dialog, bytes, u, -, hdialog, hwithin,
    hcompose, hlast⟩
  · exact hfound
  · exact (storeSerialDialog_composed hcompile hdialog hwithin hcompose hlast).1

theorem buildSerialDialog_replays (hcompile : ReplaysScripts input compile)
    (name context : String) :
    Replays input (buildSerialDialog input compile name context)
      (buildSerialDialog input (compileScript input) name context) := by
  refine ⟨fun s => ?_, fun s index t h => ?_, fun s index t h u hu => ?_⟩
  · refine .get_bind ?_
    split
    · exact Proceeds.refl input s
    · refine .orReject_bind (.refl input s) fun dialog hdialog => .rejectIf (.refl input s) fun _ =>
        .rejectIf (.refl input s) fun _ => .rejectIf (.refl input s) fun hwithin => ?_
      refine .bind (fun _ _ _ => .trans) ((internOnMap_replays _ _).proceeds s) fun message u hmessage => ?_
      have hresponses := Replays.mapM fun r (_ : r ∈ dialog.answers.responses) =>
        buildResponse_replays hcompile r
      refine .bind (fun _ _ _ => .trans) (hresponses.proceeds u) fun responses v hyields => ?_
      refine .except_bind (.refl input v) fun bytes hbytes => ?_
      refine (Atomic.onProject (atomic_addOnce _ _ _ _ _)).moves (.refl input v) fun index t h => ?_
      have hcompose : Yields (composeSerialDialog compile name dialog) s bytes v :=
        yields_bind.2 ⟨message, u, hmessage, yields_bind.2 ⟨responses, v, hyields,
          yields_except.2 ⟨hbytes, rfl⟩⟩⟩
      exact (storeSerialDialog_composed hcompile hdialog (Nat.not_lt.1 hwithin) hcompose h).2.1
  · rcases buildSerialDialog_cases h with ⟨-, rfl⟩ | ⟨dialog, bytes, u, -, hdialog, hwithin,
      hcompose, hlast⟩
    · exact .refl _
    · exact ((composeSerialDialog_replays hcompile _ _).completes _ _ _ hcompose).trans
        (storeSerialDialog_composed hcompile hdialog hwithin hcompose hlast).2.2
  · exact yields_buildSerialDialog_of_find?
      (hu.serialDialogs _ _ (buildSerialDialog_finds hcompile h))

/-! ## Actions -/

theorem resolve_replays (hcompile : ReplaysScripts input compile) (a : Action)
    (operand : Operand) :
    Replays input (resolve input compile a operand)
      (resolve input (compileScript input) a operand) := by
  unfold resolve
  cases operand.kind with
  | entity | geometry =>
    refine .bind (.except _) fun name => ?_
    refine .reads (fun s u h => ?_) fun state => .bind (.except _) fun number => .pure _
    rw [h.map]
    rfl
  | map =>
    refine .bind (.except _) fun name => ?_
    refine .reads (fun s u h => ?_) fun state => .bind (.except _) fun number => .pure _
    rw [h.project]
  | entityType =>
    refine .bind (.except _) fun name => .reads (fun s u h => ?_) fun state => ?_
    · rw [h.project]
    · cases state.project.entityTypes.find? name with
      | some type => exact .pure _
      | none => exact .reject _
  | script =>
    exact .bind (.except _) fun name => .bind (hcompile name) fun number => .pure _
  | text pool =>
    refine .bind (.except _) fun text => ?_
    exact .bind (internOnMap_replays pool text) fun number => .pure _
  | dialog =>
    refine .bind (.except _) fun name => ?_
    exact .bind (buildDialog_replays hcompile name _) fun number => .pure _
  | serialDialog =>
    refine .bind (.except _) fun name => ?_
    exact .bind (buildSerialDialog_replays hcompile name _) fun number => .pure _
  | key | turn | color | number | byte | twoBytes | bool => exact .except _
  | unsupported => exact .reject _

theorem encodeAction_replays (hcompile : ReplaysScripts input compile) (a : Action) :
    Replays input (encodeAction input compile a) (encodeAction input (compileScript input) a) := by
  refine .bind (.orReject _ _) fun opcode => .bind (.except _) fun w => ?_
  refine .bind (.foldlM (fun w operand _ => ?_) w) fun w => .pure _
  exact .bind (resolve_replays hcompile a operand) fun value => .except _

theorem composeScript_replays (hcompile : ReplaysScripts input compile) (name : String)
    (actions : Script) :
    Replays input (composeScript input compile name actions)
      (composeScript input (compileScript input) name actions) := by
  refine .bind (.except _) fun header => ?_
  exact .bind (.mapM fun a _ => encodeAction_replays hcompile a) fun instructions => .pure _

/-! ## Scripts -/

/-- A script that is listed is not compiled again. -/
theorem yields_compileScript_of_find? {name : String} {number : UInt16}
    (h : s.map.scriptNumber? name = some number) :
    Yields (compileScript input name) s number s := by
  rw [compileScript_eq]
  simp only [scriptNumber, yields_bind, yields_get]
  refine ⟨s, s, ⟨rfl, rfl⟩, ?_⟩
  rw [h]
  exact yields_pure.2 ⟨rfl, rfl⟩

/-- From `s` the script is compiled by the steps of `Writes`, and listed if that succeeds. -/
structure ListsAt (input : Input) (x : Step MapState UInt16) (name : String) (s : MapState) :
    Prop where
  proceeds : Moves (Proceeds input) x s
  lists : ∀ number t, Yields x s number t →
    s.project.tables.Completes t.project.tables ∧ t.map.scriptNumber? name = some number

theorem Replays.of_listsAt {x : Step MapState UInt16} {name : String}
    (h : ∀ s, ListsAt input x name s) : Replays input x (compileScript input name) where
  proceeds s := (h s).proceeds
  completes s number t hx := ((h s).lists number t hx).1
  again s number t hx _ hu :=
    yields_compileScript_of_find? (hu.numbers _ _ ((h s).lists number t hx).2)

theorem atomic_listScript (name : String) (global : UInt16) : Atomic (listScript name global) := by
  refine .get_bind fun state => .except_bind fun number => ?_
  intro s e t h
  cases h

theorem listsAt_listScript (input : Input) {name : String} {global : UInt16}
    (hnew : s.map.scriptNumber? name = none)
    (hclaimed : name = nullScript ∧ global = 0 ∨
      (s.project.tables.records .scripts)[global.toNat]? = some ⟨name, none⟩) :
    ListsAt input (listScript name global) name s where
  proceeds := by
    refine Atomic.moves (atomic_listScript name global) (Proceeds.refl input s)
      fun number t h => ?_
    obtain ⟨hnext, rfl⟩ := yields_listScript.1 h
    exact ⟨.step (.list name global number hnew hnext hclaimed), .refl _⟩
  lists number t h := by
    obtain ⟨-, rfl⟩ := yields_listScript.1 h
    refine ⟨.refl _, ?_⟩
    rw [MapContext.scriptNumber?, MapContext.listScript, Ordered.find?_put, if_pos rfl]

section CompileActions

variable {name : String} {actions : Script}

theorem claimScript_writes (hsource : HasActions input name actions)
    (hnew : s.map.scriptNumber? name = none) {global : UInt16}
    (h : Yields (onProject (onTables (Tables.reserve .scripts name))) s global t) :
    Writes input s t ∧ global.toNat = s.project.tables.count .scripts ∧
      t = ⟨s.map, s.project.add .scripts ⟨name, none⟩⟩ := by
  simp only [yields_onProject, yields_onTables, Tables.yields_reserve] at h
  obtain ⟨_, ⟨_, ⟨hroom, rfl, rfl⟩, rfl⟩, rfl⟩ := h
  exact ⟨.claim name actions hsource hnew hroom, UInt16.toNat_ofNat_of_lt' hroom, rfl⟩

theorem instructions_replays (hcompile : ReplaysScripts input compile) (actions : Script) :
    Replays input (actions.mapM (encodeAction input compile))
      (actions.mapM (encodeAction input (compileScript input))) :=
  .mapM fun a _ => encodeAction_replays hcompile a

/-- A record is filled when its instructions are settled. It is still only claimed then. -/
theorem fillScript_writes (hcompile : ReplaysScripts input compile)
    (hsource : HasActions input name actions) {index : Nat} {header : Bytes}
    {instructions : List Bytes} (hheader : scriptHeader name actions.length = .ok header)
    (hclaimed : (t.project.tables.records .scripts)[index]? = some ⟨name, none⟩)
    (h : Yields (actions.mapM (encodeAction input compile)) t instructions u) :
    Writes input u
      ⟨u.map, u.project.fill .scripts index (instructions.foldl (· ++ ·) header)⟩ := by
  refine .script _ name actions _ hsource
    (((instructions_replays hcompile actions).moves h).kept _ _ _ hclaimed) ?_
  refine (composeScript_replays hcompile name actions).again t _ u ?_
  exact yields_bind.2 ⟨header, t, yields_except.2 ⟨hheader, rfl⟩, yields_bind.2
    ⟨instructions, u, h, yields_pure.2 ⟨rfl, rfl⟩⟩⟩

/-- Steps of a compilation that leave the records of `before` alone. -/
def Retains (input : Input) (before : Tables) (s t : MapState) : Prop :=
  Follows input s t ∧ (before.Kept s.project.tables → before.Kept t.project.tables)

theorem Retains.trans (before : Tables) (s t u : MapState) (hst : Retains input before s t)
    (htu : Retains input before t u) : Retains input before s u :=
  ⟨hst.1.trans htu.1, htu.2 ∘ hst.2⟩

theorem Proceeds.retains (h : Proceeds input s t) (before : Tables) :
    Retains input before s t := ⟨h.follows, fun hkept => hkept.trans h.kept⟩

/-- The record of a script lies behind all that were there before, so filling it changes none of
    them. -/
theorem compileActions_retains (hcompile : ReplaysScripts input compile)
    (hsource : HasActions input name actions) (hnew : s.map.scriptNumber? name = none) :
    Moves (Retains input s.project.tables) (compileActions input compile name actions) s := by
  have hrefl : ∀ t, Retains input s.project.tables t t := fun t => ⟨.refl t, id⟩
  have htrans : ∀ t u v, Retains input s.project.tables t u → Retains input s.project.tables u v →
      Retains input s.project.tables t v := Retains.trans s.project.tables
  refine .except_bind (hrefl s) fun header hheader => ?_
  refine .bind htrans ?_ fun global t hreserve => ?_
  · refine (Atomic.onProject (.onTables Tables.atomic_reserve)).moves (hrefl s) fun _ _ h => ?_
    obtain ⟨hwrites, -, rfl⟩ := claimScript_writes hsource hnew h
    exact ⟨.step hwrites, fun hkept => hkept.add _ _⟩
  obtain ⟨-, hglobal, rfl⟩ := claimScript_writes hsource hnew hreserve
  have hrecord : ((s.project.add .scripts ⟨name, none⟩).tables.records .scripts)[
      s.project.tables.count .scripts]? = some ⟨name, none⟩ := by
    rw [Project.add, Tables.getElem?_records_add, if_pos ⟨rfl, rfl⟩]
  have hlist : ListsAt input (listScript name global) name
      ⟨s.map, s.project.add .scripts ⟨name, none⟩⟩ :=
    listsAt_listScript input hnew (Or.inr (by rw [hglobal, hrecord]))
  refine .bind htrans (hlist.proceeds.imp fun h => h.retains _) fun number t hlisted => ?_
  obtain ⟨-, rfl⟩ := yields_listScript.1 hlisted
  refine .bind htrans (((instructions_replays hcompile actions).proceeds _).imp
    fun h => h.retains _) fun instructions u hyields => ?_
  have hwrites := fillScript_writes hcompile hsource hheader (by exact hrecord) hyields
  refine .bind htrans ?_ fun _ v _ => hrefl v
  refine (Atomic.onProject (.onTables Tables.atomic_fill)).moves (hrefl u) fun _ v h => ?_
  simp only [yields_onProject, yields_onTables, Tables.yields_fill] at h
  obtain ⟨_, ⟨_, ⟨-, rfl⟩, rfl⟩, rfl⟩ := h
  rw [hglobal]
  exact ⟨.step hwrites, fun hkept => hkept.set (Nat.le_refl _) _⟩

/-- A script is claimed, listed and filled, and everything it names is compiled in between. -/
theorem listsAt_compileActions (hcompile : ReplaysScripts input compile)
    (hsource : HasActions input name actions) (hnew : s.map.scriptNumber? name = none) :
    ListsAt input (compileActions input compile name actions) name s := by
  have hretains := compileActions_retains hcompile hsource hnew
  refine ⟨⟨hretains.1, hretains.2 (.refl _)⟩, fun number t h => ?_⟩
  have hinstructions := instructions_replays hcompile actions
  simp only [compileActions, yields_bind, yields_except, yields_listScript, yields_pure] at h
  obtain ⟨header, _, ⟨hheader, rfl⟩, global, u, hreserve, number, _, ⟨hnext, rfl⟩, instructions,
    v, hyields, _, w, hfilled, rfl, rfl⟩ := h
  obtain ⟨-, hglobal, rfl⟩ := claimScript_writes hsource hnew hreserve
  simp only [yields_onProject, yields_onTables, Tables.yields_fill] at hfilled
  obtain ⟨_, ⟨_, ⟨-, rfl⟩, rfl⟩, rfl⟩ := hfilled
  refine ⟨?_, ?_⟩
  · rw [hglobal]
    exact (hinstructions.completes _ _ _ hyields).claimed _
  · refine (hinstructions.moves hyields).follows.later.numbers _ _ ?_
    rw [MapContext.listScript, Ordered.find?_put, if_pos rfl]

end CompileActions

theorem listsAt_scriptNumber {start : String → Script → Step MapState UInt16} {name : String}
    (hstart : ∀ actions, HasActions input name actions → s.map.scriptNumber? name = none →
      ListsAt input (start name actions) name s) :
    ListsAt input (scriptNumber input start name) name s := by
  refine ⟨?_, fun number t h => ?_⟩
  · refine .get_bind ?_
    split
    · exact Proceeds.refl input s
    · next hnew =>
      by_cases hnull : name = nullScript
      · rw [if_pos hnull]
        exact (listsAt_listScript input hnew (Or.inl ⟨hnull, rfl⟩)).proceeds
      · rw [if_neg hnull]
        refine .get_bind (.orReject_bind (.refl input s) fun script hscript => ?_)
        refine .except_bind (.refl input s) fun actions hactions => ?_
        exact (hstart actions ⟨hnull, script, hscript, liftM_eq_ok.1 hactions⟩ hnew).proceeds
  · simp only [scriptNumber, yields_bind, yields_get] at h
    obtain ⟨_, _, ⟨rfl, rfl⟩, h⟩ := h
    split at h
    · next known hknown =>
      obtain ⟨rfl, rfl⟩ := yields_pure.1 h
      exact ⟨.refl _, hknown⟩
    · next hnew =>
      split at h
      · next hnull =>
        exact (listsAt_listScript input hnew (Or.inl ⟨hnull, rfl⟩)).lists number t h
      · next hnull =>
        simp only [yields_bind, yields_get, yields_orReject, yields_except] at h
        obtain ⟨_, _, ⟨rfl, rfl⟩, script, _, ⟨hscript, rfl⟩, actions, _, ⟨hactions, rfl⟩, h⟩ := h
        exact (hstart actions ⟨hnull, script, hscript, liftM_eq_ok.1 hactions⟩ hnew).lists number t h

/-- Every script is compiled that way. The induction is on how many compilations may be in progress;
    what lies beyond them only fails. -/
theorem listsAt_compileWithin (input : Input) (depth : Nat) (name : String) (s : MapState) :
    ListsAt input (compileWithin input (fun _ _ => throw .overrun) depth name) name s := by
  induction depth generalizing name s with
  | zero =>
    refine listsAt_scriptNumber fun actions _ _ => ⟨?_, fun _ _ h => ?_⟩
    · exact Proceeds.refl input s
    · exact (yields_throw.1 h).elim
  | succ depth ih =>
    refine listsAt_scriptNumber fun actions hsource hnew => ?_
    exact listsAt_compileActions (fun other => .of_listsAt (ih other)) hsource hnew

theorem listsAt_compileScript (input : Input) (name : String) (s : MapState) :
    ListsAt input (compileScript input name) name s := listsAt_compileWithin input _ name s

theorem compileWithin_replays (depth : Nat) :
    ReplaysScripts input (compileWithin input (fun _ _ => throw .overrun) depth) :=
  fun name => .of_listsAt (listsAt_compileWithin input depth name)

/-- **Compiling a script once more changes nothing.** -/
theorem compileScript_replays : ReplaysScripts input (compileScript input) :=
  fun name => .of_listsAt (listsAt_compileScript input name)

/-- A script is listed under the number that compiling it gives. -/
theorem compileScript_finds {name : String} {number : UInt16}
    (h : Yields (compileScript input name) s number t) :
    t.map.scriptNumber? name = some number :=
  ((listsAt_compileScript input name s).lists number t h).2

end GameBundle
