import GameBundle.Proofs.Build.Unchanged
import GameBundle.Proofs.Script.Copies

set_option autoImplicit false

/-! # Operations that are permitted at any time

`Always A view x` says that `A` permits every operation of the step `x`, from whatever state it
starts. What a permit has to grant for this is the same for all functions of a build but those that
claim the records of maps and of types: texts, of those that become variables the ones that actions
name, records that are complete, and claims of records that the same step goes on to fill. A permit
that grants these is `Generous`, and for each function there is a lemma under its name. -/

namespace GameBundle

variable {input : Input}

/-! ## Steps whose operations are all permitted -/

/-- `A` permits every operation of the step, from whatever state it starts. -/
def Always {σ α : Type} (A : Permit) (view : σ → Project) (x : Step σ α) : Prop :=
  ∀ s, Performs A view x s

namespace Always

variable {A : Permit} {σ α β : Type} {view : σ → Project} {x : Step σ α}

theorem pure (a : α) : Always A view (pure a : Step σ α) := fun s => .pure a s

theorem throw (e : Failure) : Always A view (throw e : Step σ α) := fun s => .throw e s

theorem reject (e : BuildError) : Always A view (reject e : Step σ α) := .throw _

theorem except (x : Except Failure α) : Always A view (liftM x : Step σ α) :=
  fun _ => .except x

theorem orReject (o : Option α) (e : BuildError) :
    Always A view (GameBundle.orReject o e : Step σ α) := by
  cases o with
  | none => exact .reject e
  | some a => exact .pure a

theorem bind {f : α → Step σ β} (hx : Always A view x) (hf : ∀ a, Always A view (f a)) :
    Always A view (x >>= f) :=
  fun s => .bind (hx s) fun a t _ => hf a t

theorem get_bind {f : σ → Step σ β} (hf : ∀ s, Always A view (f s)) :
    Always A view ((MonadState.get : Step σ σ) >>= f) :=
  fun s => .get_bind (hf s s)

/-- What would come after a rejection does not matter. -/
theorem rejected (e : BuildError) (f : α → Step σ β) :
    Always A view (GameBundle.reject e >>= f) :=
  fun s => .bind (.throw _ s) fun _ _ h => (yields_throw.1 h).elim

theorem rejectIf {c : Prop} [Decidable c] (e : BuildError) {f : Unit → Step σ α}
    (hf : Always A view (f ())) :
    Always A view (if c then GameBundle.reject e >>= f else f ()) := by
  by_cases hc : c
  · rw [if_pos hc]
    exact .rejected e f
  · rw [if_neg hc]
    exact hf

theorem mapM {f : β → Step σ α} {xs : List β} (hf : ∀ b ∈ xs, Always A view (f b)) :
    Always A view (xs.mapM f) := by
  induction xs with
  | nil => exact .pure []
  | cons b xs ih =>
    rw [List.mapM_cons]
    apply bind (hf b List.mem_cons_self)
    intro a
    exact .bind (ih fun c hc => hf c (List.mem_cons_of_mem _ hc)) fun as => .pure _

theorem foldlM {f : α → β → Step σ α} {xs : List β}
    (hf : ∀ a, ∀ b ∈ xs, Always A view (f a b)) (a : α) :
    Always A view (xs.foldlM f a) := by
  induction xs generalizing a with
  | nil => exact .pure a
  | cons b xs ih =>
    rw [List.foldlM_cons]
    apply bind (hf a b List.mem_cons_self)
    intro a'
    exact ih (fun c d hd => hf c d (List.mem_cons_of_mem _ hd)) a'

theorem forM {f : β → Step σ Unit} {xs : List β} (hf : ∀ b ∈ xs, Always A view (f b)) :
    Always A view (xs.forM f) := by
  induction xs with
  | nil => exact .pure ()
  | cons b xs ih =>
    exact .bind (hf b List.mem_cons_self) fun _ => ih fun c hc => hf c (List.mem_cons_of_mem _ hc)

theorem onProject {x : Step Project α} (hx : Always A id x) :
    Always A MapState.project (GameBundle.onProject x) := fun s => .onProject (hx s.project)

theorem onMap {x : Step MapState α} (hx : Always A MapState.project x) (map : MapContext) :
    Always A id (GameBundle.onMap map x) := fun p => .onMap (hx ⟨map, p⟩)

theorem changeMap (f : MapContext → MapContext) :
    Always A MapState.project (GameBundle.changeMap f) := fun s => .changeMap f s

theorem remember_bind {f : Project → Project} {g : Unit → Step Project α}
    (hf : ∀ p, (f p).tables = p.tables ∧ (f p).pools = p.pools)
    (hA : ∀ p, A p (.remember f hf)) (hg : Always A id (g ())) : Always A id (modify f >>= g) :=
  .bind (fun p => .operation (.remember f hf) (hA p)) fun _ => hg

end Always

/-! ## Actions that name variables -/

/-- The arguments that name variables. -/
def variableKeys : List String := ["variable", "source"]

/-- Every operand that is stored as a variable is one the look-ahead reads. -/
theorem Opcode.property_mem_variableKeys {name : String} {number : UInt8} {opcode : Opcode}
    (h : Opcode.find? name = some (number, opcode)) {operand : Operand}
    (hoperand : operand ∈ opcode.operands) (hkind : operand.kind = .text .gameVariables) :
    operand.property ∈ variableKeys := by
  have hall : ∀ opcode ∈ Opcode.all, ∀ o ∈ opcode.operands,
      o.kind = .text .gameVariables → o.property ∈ variableKeys := by decide +kernel
  exact hall opcode (Opcode.mem_all_of_find? h) operand hoperand hkind

/-- `S` holds of the variables that the action names. -/
def Action.VariablesIn (S : String → Prop) (a : Action) : Prop :=
  ∀ key ∈ variableKeys, ∀ text, a.text key = .ok text → S text

/-- `S` holds of the variables that the actions of all scripts name. -/
def Input.VariablesIn (input : Input) (S : String → Prop) : Prop :=
  ∀ name script, input.definitions.scripts.find? name = some script →
    ∀ a ∈ script, a.VariablesIn S

/-- What is compiled are actions of the table, whatever was copied. -/
theorem HasActions.mem_table {name : String} {actions : Script} (h : HasActions input name actions)
    {a : Action} (ha : a ∈ actions) :
    ∃ other script, input.definitions.scripts.find? other = some script ∧ a ∈ script := by
  obtain ⟨-, script, hscript, hactions⟩ := h
  obtain ⟨expanded, hrounds, hresult⟩ := bind_eq_ok.1 hactions
  cases expanded with
  | none => cases hresult
  | some expanded =>
    cases pure_eq_ok.1 hresult
    have htable : ∀ other script', input.definitions.scripts.find? other = some script' →
        ∀ b ∈ script', ∃ other script, input.definitions.scripts.find? other = some script ∧
          b ∈ script :=
      fun other script' hfind b hb => ⟨other, script', hfind, hb⟩
    exact expandRounds_all htable (htable name script hscript) hrounds a ha

theorem HasActions.variablesIn {S : String → Prop} {name : String} {actions : Script}
    (hinput : input.VariablesIn S) (h : HasActions input name actions) :
    ∀ a ∈ actions, a.VariablesIn S := by
  intro a ha
  obtain ⟨other, script, hscript, hmem⟩ := h.mem_table ha
  exact hinput other script hscript a hmem

/-! ## Numbers of scripts -/

section Numbers

variable {A : Permit}

theorem Always.listScript (name : String) (global : UInt16) :
    Always A MapState.project (listScript name global) :=
  .get_bind fun _ => .bind (.except _) fun _ => .bind (.changeMap _) fun _ => .pure _

theorem Always.scriptNumber {start : String → Script → Step MapState UInt16}
    (hstart : ∀ name actions, HasActions input name actions →
      Always A MapState.project (start name actions)) (name : String) :
    Always A MapState.project (scriptNumber input start name) := by
  apply Always.get_bind
  intro s
  cases s.map.scriptNumber? name with
  | some number => exact .pure number
  | none =>
    dsimp only
    by_cases hnull : name = nullScript
    · rw [if_pos hnull]
      exact .listScript _ _
    · rw [if_neg hnull]
      intro t
      apply Performs.get_bind
      apply Performs.bind (Always.orReject _ _ t)
      intro script u hscript
      obtain ⟨hfind, rfl⟩ := yields_orReject.1 hscript
      apply Performs.except_bind
      intro actions hactions
      exact hstart name actions ⟨hnull, script, hfind, liftM_eq_ok.1 hactions⟩ t

end Numbers

/-! ## Generous permits -/

/-- The kinds of records that are claimed by the step that fills them. -/
def claimKinds : List Kind := [.tilesets, .images, .palettes, .portraits, .scripts]

/-- The kinds of what a project is drawn with. -/
def lookKinds : List Kind := [.portraits, .entityTypes]

/-- The change leaves it alone which portraits and which types there are. -/
def SparesLooks (f : Project → Project) : Prop :=
  ∀ p, (f p).portraits = p.portraits ∧ (f p).entityTypes = p.entityTypes

/-- The permit grants whatever a build does apart from claims that another step has to fill, and
    from what is done to portraits and types. Of the texts that become variables it has to grant
    those in `S`. -/
structure Generous (S : String → Prop) (A : Permit) : Prop where
  texts : ∀ p pool map raw, (pool = .gameVariables → S raw) → A p (.text pool map raw)
  pushes : ∀ p kind other name bytes, kind ∉ lookKinds → A p (.push kind other name bytes)
  claims : ∀ p kind other name, kind ∈ claimKinds → kind ∉ lookKinds →
    A p (.reserve kind other name)
  fills : ∀ p kind other index bytes, kind ∉ lookKinds → A p (.fill kind other index bytes)
  updates : ∀ p kind other index f, kind ∉ lookKinds → A p (.update kind other index f)
  remembers : ∀ p f keeps, SparesLooks f → A p (.remember f keeps)

/-- The permit grants what is done to portraits and types once the types are claimed. -/
structure GrantsLooks (A : Permit) : Prop where
  claims : ∀ p other name, A p (.reserve .portraits other name)
  fills : ∀ p kind other index bytes, A p (.fill kind other index bytes)
  remembers : ∀ p f keeps, A p (.remember f keeps)

section Generous

variable {S : String → Prop} {A : Permit} {α : Type} (hA : Generous S A)
include hA

theorem Generous.text {pool : Pool} {raw : String} (hraw : pool = .gameVariables → S raw)
    (map : Option MapContext) : Always A id (intern pool map raw) :=
  fun p => .operation (.text pool map raw) (hA.texts p pool map raw hraw)

theorem Generous.push {kind : Kind} (hkind : kind ∉ textKinds) (hother : kind ∉ lookKinds)
    (name : String) (bytes : Bytes) : Always A id (onTables (Tables.push kind name bytes)) :=
  fun p => .operation (.push kind hkind name bytes) (hA.pushes p kind hkind name bytes hother)

theorem Generous.reserve {kind : Kind} (hkind : kind ∉ textKinds) (hclaim : kind ∈ claimKinds)
    (hother : kind ∉ lookKinds) (name : String) :
    Always A id (onTables (Tables.reserve kind name)) :=
  fun p => .operation (.reserve kind hkind name) (hA.claims p kind hkind name hclaim hother)

theorem Generous.fill {kind : Kind} (hkind : kind ∉ textKinds) (hother : kind ∉ lookKinds)
    (index : UInt16) (bytes : Bytes) : Always A id (onTables (Tables.fill kind index bytes)) :=
  fun p => .operation (.fill kind hkind index bytes) (hA.fills p kind hkind index bytes hother)

theorem Generous.update {kind : Kind} (hkind : kind ∉ textKinds) (hother : kind ∉ lookKinds)
    (index : UInt16) (f : Bytes → Except Failure Bytes) :
    Always A id (onTables (Tables.update kind index f)) :=
  fun p => .operation (.update kind hkind index f) (hA.updates p kind hkind index f hother)

theorem Generous.remember {f : Project → Project}
    (hf : ∀ p, (f p).tables = p.tables ∧ (f p).pools = p.pools) (hspares : SparesLooks f) :
    Always A id (modify f) :=
  fun p => .operation (.remember f hf) (hA.remembers p f hf hspares)

/-! ## Tilesets -/

theorem Generous.loadImage (path : String) (layout : TileLayout) :
    Always A id (loadImage input path layout) := by
  apply Always.get_bind
  intro p
  cases p.images.find? (Text.baseName path) with
  | some index => exact .pure index
  | none =>
    apply Always.bind (hA.reserve (by decide) (by decide) (by decide) _)
    intro index
    apply Always.bind (hA.reserve (by decide) (by decide) (by decide) _)
    intro palette
    refine .remember_bind (fun _ => ⟨rfl, rfl⟩) (fun q => hA.remembers q _ _ fun _ => ⟨rfl, rfl⟩) ?_
    apply Always.bind (.except _)
    intro image
    apply Always.bind (.except _)
    intro picture
    apply Always.bind (.except _)
    intro colors
    apply Always.bind (hA.fill (by decide) (by decide) _ _)
    intro _
    exact .bind (hA.fill (by decide) (by decide) _ _) fun _ => .pure index

theorem Generous.addOutline (object : Tiled.Object) : Always A id (addOutline object) :=
  .bind (.except _) fun _ => hA.push (by decide) (by decide) _ _

theorem Generous.loadShape (file : Tiled.TilesetFile) (tile : Tiled.TileDef) (context : String) :
    Always A id (loadShape file tile context) := by
  unfold GameBundle.loadShape
  split
  · exact .pure _
  · exact .pure _
  · apply Always.rejectIf
    apply Always.bind (hA.addOutline _)
    intro index
    exact .bind (.except _) fun word => .pure _
  · exact .reject _

theorem Generous.loadAnimation (tileset : UInt16) (tile : Tiled.TileDef) (context : String) :
    Always A id (loadAnimation tileset tile context) := by
  unfold GameBundle.loadAnimation
  split
  · exact .pure _
  · exact .pure _
  · apply Always.bind (.except _)
    intro bytes
    exact .bind (hA.push (by decide) (by decide) _ _) fun index => .pure _

theorem Generous.loadTile (file : Tiled.TilesetFile) (tileset : UInt16) (context : String)
    (tile : Tiled.TileDef) : Always A id (loadTile file tileset context tile) := by
  apply Always.get_bind
  intro p
  apply Always.bind (.except _)
  intro properties
  apply Always.bind (hA.loadShape _ _ _)
  intro shape
  exact .bind (hA.loadAnimation _ _ _) fun animation => .pure _

theorem Generous.loadTileset (path : String) : Always A id (loadTileset input path) := by
  apply Always.get_bind
  intro p
  cases p.tilesets.find? (Text.baseName path) with
  | some tileset => exact .pure tileset
  | none =>
    apply Always.bind (.except _)
    intro file
    apply Always.rejectIf
    apply Always.bind (hA.reserve (by decide) (by decide) (by decide) _)
    intro index
    apply Always.bind (.mapM fun tile _ => .bind (hA.loadTile _ _ _ _) fun _ => .pure _)
    intro loaded
    apply Always.bind (hA.loadImage _ _)
    intro image
    apply Always.bind (.except _)
    intro header
    apply Always.bind (.except _)
    intro shapes
    apply Always.bind (hA.fill (by decide) (by decide) _ _)
    intro _
    exact .bind (hA.remember (fun _ => ⟨rfl, rfl⟩) fun _ => ⟨rfl, rfl⟩) fun _ => .pure _

theorem Generous.loadTilesets (tiled : Tiled.Map) : Always A id (loadTilesets input tiled) :=
  .mapM fun _ _ => .bind (hA.loadTileset _) fun _ => .pure _

/-! ## What maps share -/

theorem Generous.loadDialogSkins : Always A id (loadDialogSkins input) :=
  .forM fun _ _ => .bind (hA.loadTileset _) fun _ =>
    hA.remember (fun _ => ⟨rfl, rfl⟩) fun _ => ⟨rfl, rfl⟩

theorem Generous.buildPortraits (hlooks : GrantsLooks A) : Always A id (buildPortraits input) := by
  apply Always.forM
  intro portrait _
  apply Always.bind fun p => .operation (.reserve .portraits (by decide) _) (hlooks.claims p _ _)
  intro index
  refine .remember_bind (fun _ => ⟨rfl, rfl⟩) (fun p => hlooks.remembers p _ _) ?_
  apply Always.bind (hA.loadTileset _)
  intro tileset
  apply Always.bind (.except _)
  intro bytes p
  exact .operation (.fill .portraits (by decide) _ _) (hlooks.fills p _ _ _ _)

theorem Generous.buildEntityTypes (hlooks : GrantsLooks A) :
    Always A id (buildEntityTypes input) := by
  apply Always.get_bind
  intro p
  apply Always.forM
  intro type _
  apply Always.bind (hA.loadTileset _)
  intro tileset
  apply Always.get_bind
  intro q
  apply Always.bind (.except _)
  intro bytes r
  exact .operation (.fill .entityTypes (by decide) _ _) (hlooks.fills r _ _ _ _)

theorem Generous.addNullScript : Always A id addNullScript :=
  .bind (.except _) fun _ => hA.push (by decide) (by decide) _ _

/-! ## Objects of a map -/

theorem Generous.placeOutlines (objects : List Tiled.Object) :
    Always A MapState.project (placeOutlines objects) := by
  apply Always.mapM
  intro object _
  dsimp only
  split
  · exact .pure _
  · apply Always.bind (.onProject (hA.addOutline _))
    intro index
    apply Always.get_bind
    intro s
    exact .bind (.changeMap _) fun _ => .pure _

theorem Generous.addEntity (e : Entity) (path : Option UInt16) :
    Always A id (addEntity e path) :=
  .get_bind fun _ => .bind (.except _) fun _ => hA.push (by decide) (by decide) _ _

theorem Generous.placeEntity (earlier : List (UInt16 × Entity)) (e : Entity) :
    Always A MapState.project (placeEntity earlier e) := by
  apply Always.get_bind
  intro s
  apply Always.bind (.except _)
  intro path
  apply Always.bind (.onProject (hA.addEntity _ _))
  intro global
  apply Always.bind (.changeMap _)
  intro _
  split
  · split
    · exact .rejected _ _
    · exact .bind (.changeMap _) fun _ => .pure _
  · exact .pure _

theorem Generous.placeObjects (tiled : Tiled.Map) (tilesets : List (UInt32 × Tileset)) :
    Always A MapState.project (placeObjects tiled tilesets) := by
  apply Always.get_bind
  intro s
  apply Always.bind (.except _)
  intro _
  apply Always.bind (hA.placeOutlines _)
  intro outlines
  apply Always.bind (.changeMap _)
  intro _
  apply Always.get_bind
  intro s'
  apply Always.bind (.except _)
  intro composed
  apply Always.bind
  · apply Always.foldlM
    intro placed e _
    exact .bind (hA.placeEntity _ _) fun global => .pure _
  · intro placed
    exact .bind (.changeMap _) fun _ => .pure _

/-! ## Dialogs -/

variable {compile : String → Step MapState UInt16}

theorem Generous.internOnMap {pool : Pool} {raw : String} (hraw : pool = .gameVariables → S raw) :
    Always A MapState.project (GameBundle.internOnMap pool raw) :=
  .get_bind fun _ => .onProject (hA.text hraw _)

theorem Generous.internOnMap_of_ne {pool : Pool} (hpool : pool ≠ .gameVariables) (raw : String) :
    Always A MapState.project (GameBundle.internOnMap pool raw) :=
  hA.internOnMap fun heq => absurd heq hpool

theorem Generous.buildResponse (hcompile : ∀ name, Always A MapState.project (compile name))
    (r : Response) : Always A MapState.project (buildResponse compile r) := by
  apply Always.bind (hA.internOnMap_of_ne (by decide) _)
  intro label
  exact .bind (hcompile _) fun script => .pure _

theorem Generous.buildScreen (hcompile : ∀ name, Always A MapState.project (compile name))
    (screen : Screen) (context : String) :
    Always A MapState.project (buildScreen compile screen context) := by
  apply Always.get_bind
  intro s
  apply Always.bind (.except _)
  intro fixed
  apply Always.bind (hA.internOnMap_of_ne (by decide) _)
  intro title
  apply Always.bind (.mapM fun text _ => hA.internOnMap_of_ne (by decide) _)
  intro messages
  apply Always.bind (.mapM fun r _ => hA.buildResponse hcompile r)
  intro responses
  exact .except _

theorem Generous.addOnce {kind : Kind} (hkind : kind ∉ textKinds) (hother : kind ∉ lookKinds)
    {find? : Project → Option UInt16} {record : String} {bytes : Bytes}
    {remember : UInt16 → Project → Project}
    (hremember : ∀ index p, (remember index p).tables = p.tables ∧
      (remember index p).pools = p.pools)
    (hspares : ∀ index, SparesLooks (remember index)) :
    Always A id (addOnce kind find? record bytes remember) := by
  apply Always.get_bind
  intro p
  cases find? p with
  | some index => exact .pure index
  | none =>
    apply Always.bind (hA.push hkind hother _ _)
    intro index
    exact .bind (hA.remember (hremember index) (hspares index)) fun _ => .pure index

theorem Generous.buildDialog (hcompile : ∀ name, Always A MapState.project (compile name))
    (name context : String) :
    Always A MapState.project (buildDialog input compile name context) := by
  apply Always.get_bind
  intro s
  apply Always.get_bind
  intro s'
  cases s'.project.dialogs.find? (dialogKey s.map.name name) with
  | some index => exact .pure index
  | none =>
    apply Always.bind (.orReject _ _)
    intro screens
    apply Always.rejectIf
    cases screens.findIdx? fun s => s.messages.isEmpty with
    | some screen => exact .rejected _ _
    | none =>
      apply Always.bind (.except _)
      intro header
      apply Always.bind (.mapM fun q _ => hA.buildScreen hcompile q.1 _)
      intro bodies
      exact .onProject (hA.addOnce (by decide) (by decide) (fun _ _ => ⟨rfl, rfl⟩)
        fun _ _ => ⟨rfl, rfl⟩)

theorem Generous.buildSerialDialog
    (hcompile : ∀ name, Always A MapState.project (compile name)) (name context : String) :
    Always A MapState.project (buildSerialDialog input compile name context) := by
  apply Always.get_bind
  intro s
  cases s.project.serialDialogs.find? name with
  | some index => exact .pure index
  | none =>
    apply Always.bind (.orReject _ _)
    intro dialog
    apply Always.rejectIf
    apply Always.rejectIf
    apply Always.rejectIf
    apply Always.bind (hA.internOnMap_of_ne (by decide) _)
    intro message
    apply Always.bind (.mapM fun r _ => hA.buildResponse hcompile r)
    intro responses
    apply Always.bind (.except _)
    intro bytes
    exact .onProject (hA.addOnce (by decide) (by decide) (fun _ _ => ⟨rfl, rfl⟩)
        fun _ _ => ⟨rfl, rfl⟩)

/-! ## Actions -/

theorem Generous.resolve (hcompile : ∀ name, Always A MapState.project (compile name))
    {a : Action} (ha : a.VariablesIn S) {operand : Operand}
    (hkeys : operand.kind = .text .gameVariables → operand.property ∈ variableKeys) :
    Always A MapState.project (resolve input compile a operand) := by
  unfold GameBundle.resolve
  cases hkind : operand.kind with
  | entity | geometry | map =>
    apply Always.bind (.except _)
    intro name
    apply Always.get_bind
    intro s
    exact .bind (.except _) fun number => .pure _
  | entityType =>
    apply Always.bind (.except _)
    intro name
    apply Always.get_bind
    intro s
    cases s.project.entityTypes.find? name with
    | some type => exact .pure _
    | none => exact .reject _
  | script => exact .bind (.except _) fun name => .bind (hcompile name) fun number => .pure _
  | text pool =>
    -- only a text that the action really has reaches its pool
    intro s
    apply Performs.except_bind
    intro text htext
    have hstored : Always A MapState.project (GameBundle.internOnMap pool text) := by
      apply hA.internOnMap
      rintro rfl
      exact ha operand.property (hkeys hkind) text (liftM_eq_ok.1 htext)
    exact .bind (hstored s) fun number t _ => .pure _ t
  | dialog =>
    apply Always.bind (.except _)
    intro name
    exact .bind (hA.buildDialog hcompile _ _) fun number => .pure _
  | serialDialog =>
    apply Always.bind (.except _)
    intro name
    exact .bind (hA.buildSerialDialog hcompile _ _) fun number => .pure _
  | key | turn | color | number | byte | twoBytes | bool => exact .except _
  | unsupported => exact .reject _

theorem Generous.encodeAction (hcompile : ∀ name, Always A MapState.project (compile name))
    {a : Action} (ha : a.VariablesIn S) :
    Always A MapState.project (encodeAction input compile a) := by
  intro s
  apply Performs.bind (Always.orReject _ _ s)
  rintro ⟨number, opcode⟩ t hfind
  obtain ⟨hopcode, rfl⟩ := yields_orReject.1 hfind
  apply Performs.except_bind
  intro w _
  have hoperands : Always A MapState.project (opcode.operands.foldlM (fun w operand => do
      let value ← GameBundle.resolve input compile a operand
      let context := s!"{a.name} \"{operand.property}\""
      (w.write (.number value operand.width context operand.order) : Except Failure Writer))
        w) := by
    apply Always.foldlM
    intro w operand hoperand
    have hkeys := Opcode.property_mem_variableKeys hopcode hoperand
    exact .bind (hA.resolve hcompile ha hkeys) fun value => .except _
  exact .bind (hoperands s) fun w t _ => .pure _ t

/-! ## Scripts -/

theorem Generous.compileActions (hcompile : ∀ name, Always A MapState.project (compile name))
    {actions : Script} (hactions : ∀ a ∈ actions, a.VariablesIn S) (name : String) :
    Always A MapState.project (compileActions input compile name actions) := by
  apply Always.bind (.except _)
  intro header
  apply Always.bind (.onProject (hA.reserve (by decide) (by decide) (by decide) _))
  intro global
  apply Always.bind (.listScript _ _)
  intro number
  apply Always.bind (.mapM fun a ha => hA.encodeAction hcompile (hactions a ha))
  intro instructions
  exact .bind (.onProject (hA.fill (by decide) (by decide) _ _)) fun _ => .pure _

/-- The induction is on how many compilations may be in progress. -/
theorem Generous.compileScript (hinput : input.VariablesIn S) (name : String) :
    Always A MapState.project (compileScript input name) := by
  have hwithin : ∀ depth name, Always A MapState.project
      (compileWithin input (fun _ _ => throw .overrun) depth name) := by
    intro depth
    induction depth with
    | zero =>
      intro name
      exact Always.scriptNumber (fun _ _ _ => .throw _) name
    | succ depth ih =>
      intro name
      apply Always.scriptNumber
      intro name actions hactions
      exact hA.compileActions ih (hactions.variablesIn hinput) name
  exact hwithin _ name

/-! ## Maps -/

theorem Generous.compileAll (hinput : input.VariablesIn S) (scripts : List (String × String)) :
    Always A MapState.project (compileAll input scripts) :=
  .mapM fun _ _ => .bind (hA.compileScript hinput _) fun _ => .pure _

theorem Generous.compileEvents (hinput : input.VariablesIn S) (tiled : Tiled.Map)
    (settings : MapSettings) :
    Always A MapState.project (compileEvents input tiled settings) := by
  apply Always.bind (hA.compileScript hinput _)
  intro null
  apply Always.get_bind
  intro s
  apply Always.bind (.except _)
  intro scripts
  exact .bind (hA.compileAll hinput _) fun numbers => .pure _

theorem Generous.wireEntity (hinput : input.VariablesIn S) (global : UInt16) (e : Entity) :
    Always A MapState.project (wireEntity input global e) := by
  apply Always.forM
  rintro ⟨property, offset⟩ _
  dsimp only
  cases e.script? property with
  | none => exact .pure ()
  | some script =>
    apply Always.bind (hA.compileScript hinput script)
    intro number
    exact .onProject (hA.update (by decide) (by decide) _ _)

theorem Generous.buildMapContents (hinput : input.VariablesIn S) (settings : MapSettings)
    (tiled : Tiled.Map) (tilesets : List (UInt32 × Tileset)) (layers : List Bytes) :
    Always A MapState.project (buildMapContents input settings tiled tilesets layers) := by
  apply Always.bind (hA.placeObjects _ _)
  intro placed
  apply Always.bind (hA.compileEvents hinput _ _)
  intro events
  apply Always.bind (hA.compileAll hinput _)
  intro directions
  apply Always.bind (.forM fun p _ => hA.wireEntity hinput p.1 p.2)
  intro _
  apply Always.get_bind
  intro s
  apply Always.bind (.except _)
  intro header
  exact .onProject (hA.fill (by decide) (by decide) _ _)

theorem Generous.buildMap (hinput : input.VariablesIn S) (name : String)
    (settings : MapSettings) : Always A id (buildMap input name settings) := by
  apply Always.bind (.orReject _ _)
  intro path
  apply Always.get_bind
  intro p
  apply Always.bind (.orReject _ _)
  intro index
  apply Always.bind (.except _)
  intro tiled
  apply Always.bind (hA.loadTilesets _)
  intro tilesets
  apply Always.bind (.except _)
  intro layers
  exact .onMap (hA.buildMapContents hinput _ _ _ _) _

end Generous

end GameBundle
