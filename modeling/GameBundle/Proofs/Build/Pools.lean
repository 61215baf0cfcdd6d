import GameBundle.Proofs.Build.Remembering
import GameBundle.Proofs.Build.Unchanged

set_option autoImplicit false

/-! # Pools and the records of texts

A pool and the table of its texts are two structures that say the same: the pool has the number of
each text, and the table has the text with that number. Nothing but `intern` changes either of them,
and that step comes in the middle of everything else, also of what fails later. `TextsStored` holds
at every moment, because every operation keeps it. -/

namespace GameBundle

variable {input : Input}

/-! ## The texts of one pool -/

theorem Pool.kind_inj {pool pool' : Pool} (h : pool.kind = pool'.kind) : pool = pool' := by
  cases pool <;> cases pool' <;> first | rfl | cases h

theorem intern_succeeds {p q : Project} {pool : Pool} {map : Option MapContext} {raw : String}
    {index : UInt16} (h : outcome (intern pool map raw) p = (.ok index, q)) :
    ∃ value, templatize map p.pools.gameVariables raw = .ok value ∧
      ((p.pools.get pool).find? value = some index ∧ q = p ∨
        (p.pools.get pool).find? value = none ∧
          (pool = .gameVariables → p.pools.gameVariables.size < variableLimit) ∧
          p.tables.count pool.kind < UInt16.size ∧ index = p.next pool.kind ∧
          q = p.store pool value) := by
  rw [outcome_intern] at h
  cases hvalue : templatize map p.pools.gameVariables raw with
  | error e =>
    rw [hvalue] at h
    cases h
  | ok value =>
    rw [hvalue] at h
    refine ⟨value, rfl, ?_⟩
    cases hfind : (p.pools.get pool).find? value with
    | some found =>
      simp only [hfind] at h
      cases h
      exact Or.inl ⟨rfl, rfl⟩
    | none =>
      simp only [hfind] at h
      split at h
      · cases h
      · next hwithin =>
        split at h
        · next hroom =>
          cases h
          refine Or.inr ⟨rfl, fun hpool => ?_, hroom, rfl, rfl⟩
          exact Nat.not_le.1 fun hfull => hwithin ⟨hpool, hfull⟩
        · cases h

/-- A text that has a record is not stored again. -/
theorem intern_known {p : Project} {pool : Pool} {map : Option MapContext} {raw value : String}
    {index : UInt16} (hvalue : templatize map p.pools.gameVariables raw = .ok value)
    (hfind : (p.pools.get pool).find? value = some index) :
    Yields (intern pool map raw) p index p := by
  unfold Yields
  rw [outcome_intern, hvalue]
  simp only [hfind]

/-- The pool has the same texts, with the same records. -/
structure Project.SameTexts (pool : Pool) (p q : Project) : Prop where
  records : q.tables.records pool.kind = p.tables.records pool.kind
  numbers : q.pools.get pool = p.pools.get pool

theorem Project.sameTexts_store {pool other : Pool} (hother : pool ≠ other) (value : String)
    (p : Project) : p.SameTexts pool (p.store other value) where
  records := Tables.records_add_of_ne _ fun hkind => hother (Pool.kind_inj hkind)
  numbers := by
    change (p.pools.put other value (p.next other.kind)).get pool = _
    rw [Pools.get_put, if_neg hother]

/-- What an operation has to do with a pool is to store a text in it. -/
theorem Operation.sameTexts {o : Operation} {pool : Pool}
    (hother : ∀ map raw, o ≠ .text pool map raw) (p : Project) :
    p.SameTexts pool (outcome o.step p).2 := by
  by_cases htext : ∃ pool' map raw, o = .text pool' map raw
  · obtain ⟨pool', map, raw, rfl⟩ := htext
    have hne : pool ≠ pool' := by
      rintro rfl
      exact hother map raw rfl
    change p.SameTexts pool (outcome (intern pool' map raw) p).2
    rcases hout : outcome (intern pool' map raw) p with ⟨e | index, q⟩
    · obtain rfl := atomic_intern _ _ _ p e q hout
      exact ⟨rfl, rfl⟩
    · obtain ⟨value, -, ⟨-, rfl⟩ | ⟨-, -, -, -, rfl⟩⟩ := intern_succeeds hout
      · exact ⟨rfl, rfl⟩
      · exact p.sameTexts_store hne value
  · -- the other operations have to do with other kinds of records
    constructor
    · rcases o.outcome_tables p with
        heq | ⟨kind, record, hadds, heq⟩ | ⟨kind, i, bytes, hwrites, heq⟩
      · rw [heq]
      · rw [heq, Tables.records_add_of_ne]
        rintro rfl
        cases o with
        | text pool map raw => exact htext ⟨pool, map, raw, rfl⟩
        | push kind other | reserve kind other =>
          obtain rfl := Option.some.inj hadds
          exact other pool.kind_mem
        | fill | update | remember => cases hadds
      · rw [heq, Tables.records_set_of_ne]
        rintro rfl
        cases o with
        | fill kind other | update kind other =>
          obtain ⟨rfl, -⟩ := Prod.mk.inj (Option.some.inj hwrites)
          exact other pool.kind_mem
        | text | push | reserve | remember => cases hwrites
    · cases o with
      | text pool map raw => exact absurd ⟨pool, map, raw, rfl⟩ htext
      | push | reserve | fill | update => rfl
      | remember f keeps =>
        change (f p).pools.get pool = p.pools.get pool
        rw [(keeps p).2]

/-! ## Stored texts -/

/-- The record of a text is named for it and has its bytes. -/
def TextRecord (value : String) (record : Record) : Prop :=
  record = ⟨value, some (encodeText value)⟩

/-- Every record of a text was added when its pool got the text. -/
structure TextsStored (p : Project) : Prop where
  remembers : ∀ pool, Remembers TextRecord pool.kind (fun q => q.pools.get pool) {} p
  limit : p.tables.count .gameVariables ≤ variableLimit

namespace TextsStored

variable {p q : Project} {pool : Pool} {value : String}

theorem empty : TextsStored {} where
  remembers pool := ⟨[], .of_eq rfl rfl⟩
  limit := by
    change (Tables.empty.records .gameVariables).size ≤ _
    rw [Tables.records_empty]
    decide

theorem of_same (h : TextsStored p) (hsame : ∀ pool, p.SameTexts pool q) : TextsStored q where
  remembers pool := by
    obtain ⟨added, hadded⟩ := h.remembers pool
    exact ⟨added ++ [], hadded.trans (.of_eq (hsame pool).records (hsame pool).numbers)⟩
  limit := by
    change (q.tables.records (Pool.gameVariables).kind).size ≤ _
    rw [(hsame .gameVariables).records]
    exact h.limit

/-- The pool has as many texts as its table has records. -/
theorem size_pool (h : TextsStored p) (pool : Pool) :
    (p.pools.get pool).size = p.tables.count pool.kind := by
  obtain ⟨added, hadded⟩ := h.remembers pool
  have hempty : ((({} : Project).pools.get pool).entries) = [] := by cases pool <;> rfl
  rw [Ordered.size, hadded.entries, hempty, hadded.count_eq, numberedFrom]
  change _ = (Tables.empty.records pool.kind).size + _
  rw [Tables.records_empty]
  simp

theorem size_gameVariables (h : TextsStored p) :
    p.pools.gameVariables.size = p.tables.count .gameVariables := h.size_pool .gameVariables

/-- A new text is stored. -/
theorem store (h : TextsStored p) (hnew : (p.pools.get pool).find? value = none)
    (hroom : p.tables.count pool.kind < UInt16.size)
    (hlimit : pool = .gameVariables → p.tables.count .gameVariables < variableLimit) :
    TextsStored (p.store pool value) where
  remembers other := by
    obtain ⟨added, hadded⟩ := h.remembers other
    by_cases hother : other = pool
    · subst hother
      refine ⟨added ++ [(value, ⟨value, some (encodeText value)⟩)],
        hadded.trans ?_⟩
      have hrecord : TextRecord value ⟨value, some (encodeText value)⟩ := rfl
      refine .single hroom rfl ?_ hrecord
      change ((p.pools.put other value (p.next other.kind)).get other).entries = _
      rw [Pools.get_put, if_pos rfl, Ordered.entries_put _ hnew]
    · have hsame : p.SameTexts other (p.store pool value) := p.sameTexts_store hother value
      exact ⟨added ++ [], hadded.trans (.of_eq hsame.records hsame.numbers)⟩
  limit := by
    change (p.tables.add pool.kind _).count .gameVariables ≤ _
    rw [Tables.count_add]
    split
    · next hkind =>
      have hpool : Pool.gameVariables = pool := Pool.kind_inj hkind
      exact hlimit hpool.symm
    · exact h.limit

end TextsStored

/-! ## Answers -/

/-- What `intern` does in the project: it answers with the number of the text, and only a new text
    changes anything. -/
structure TextAnswered (p : Project) (pool : Pool) (map : Option MapContext) (raw : String) :
    Prop where
  /-- A success is about the text with its tokens replaced. Either the pool has it, or one record is
      added at the end. -/
  succeeds : ∀ index q, outcome (intern pool map raw) p = (.ok index, q) →
    ∃ value, templatize map p.pools.gameVariables raw = .ok value ∧
      ((p.pools.get pool).find? value = some index ∧ q = p ∨
        (p.pools.get pool).find? value = none ∧ index.toNat = p.tables.count pool.kind ∧
          q = p.store pool value)
  known : ∀ value index, templatize map p.pools.gameVariables raw = .ok value →
    (p.pools.get pool).find? value = some index → outcome (intern pool map raw) p = (.ok index, p)
  /-- A failure changes nothing. -/
  fails : ∀ e q, outcome (intern pool map raw) p = (.error e, q) → q = p
  small : pool = .gameVariables → ∀ index q, outcome (intern pool map raw) p = (.ok index, q) →
    index.toNat ≤ 254
  tooMany : pool = .gameVariables → p.tables.count .gameVariables = 255 →
    ∀ value, templatize map p.pools.gameVariables raw = .ok value →
      (p.pools.get pool).find? value = none →
      outcome (intern pool map raw) p = (.error (.error (.tooManyVariables value)), p)

namespace TextsStored

variable {p : Project}

/-- **Every operation keeps texts stored.** -/
theorem operation (h : TextsStored p) (o : Operation) : TextsStored (outcome o.step p).2 := by
  by_cases htext : ∃ pool map raw, o = .text pool map raw
  · obtain ⟨pool, map, raw, rfl⟩ := htext
    change TextsStored (outcome (intern pool map raw) p).2
    rcases hout : outcome (intern pool map raw) p with ⟨e | index, q⟩
    · rwa [atomic_intern _ _ _ p e q hout]
    · obtain ⟨value, -, ⟨-, rfl⟩ | ⟨hnew, hlimit, hroom, -, rfl⟩⟩ := intern_succeeds hout
      · exact h
      · refine h.store hnew hroom fun hpool => ?_
        rw [← h.size_gameVariables]
        exact hlimit hpool
  · apply h.of_same
    intro pool
    exact o.sameTexts (fun map raw heq => htext ⟨pool, map, raw, heq⟩) p

/-- **Texts are stored at every moment of a step, whether it succeeds or not.** -/
theorem performs {A : Permit} {σ α : Type} {view : σ → Project} {x : Step σ α} {s : σ}
    (h : TextsStored (view s)) (hx : Performs A view x s) : TextsStored (view (outcome x s).2) :=
  hx.moves (R := fun p q => TextsStored p → TextsStored q) (fun _ h => h)
    (fun _ _ _ hpq hqr hp => hqr (hpq hp)) (fun _ o _ hp => hp.operation o) h

theorem answered (h : TextsStored p) (pool : Pool) (map : Option MapContext) (raw : String) :
    TextAnswered p pool map raw where
  succeeds index q hout := by
    obtain ⟨value, hvalue, hcases⟩ := intern_succeeds hout
    refine ⟨value, hvalue, hcases.imp id ?_⟩
    rintro ⟨hnew, -, hroom, rfl, rfl⟩
    exact ⟨hnew, UInt16.toNat_ofNat_of_lt' hroom, rfl⟩
  known _ _ hvalue hfind := intern_known hvalue hfind
  fails := fun e q => atomic_intern _ _ _ p e q
  small hpool index q hout := by
    subst hpool
    have hlimit := h.limit
    obtain ⟨value, -, ⟨hfind, rfl⟩ | ⟨-, hwithin, hroom, rfl, rfl⟩⟩ := intern_succeeds hout
    · obtain ⟨added, hadded⟩ := h.remembers .gameVariables
      obtain ⟨record, -, hrecord, -⟩ := hadded.record rfl hfind
      have hlt := (Array.getElem?_eq_some_iff.1 hrecord).1
      change index.toNat < q.tables.count .gameVariables at hlt
      rw [variableLimit] at hlimit
      omega
    · have hlt := hwithin rfl
      rw [h.size_gameVariables, variableLimit] at hlt
      rw [Project.next, UInt16.toNat_ofNat_of_lt' hroom]
      exact Nat.le_of_lt_succ hlt
  tooMany hpool hfull value hvalue hnew := by
    subst hpool
    rw [outcome_intern, hvalue]
    simp only [hnew]
    rw [if_pos ⟨trivial, by rw [h.size_gameVariables, hfull]; decide⟩]

end TextsStored

/-! ## Mirrors -/

/-- The record of a text. -/
def Record.ofText (value : String) : Record := ⟨value, some (encodeText value)⟩

/-- The pool has the numbers of the texts that its table has, and the table has each once. -/
structure MirrorsTable (p : Project) (pool : Pool) : Prop where
  distinct : ((p.tables.records pool.kind).toList.map Record.name).Nodup
  numbered : ∀ value index, (p.pools.get pool).find? value = some index ↔
    ∃ record, (p.tables.records pool.kind)[index.toNat]? = some record ∧ record.name = value
  encoded : ∀ record ∈ (p.tables.records pool.kind).toList,
    record.bytes = some (encodeText record.name)

namespace TextsStored

variable {p : Project} (h : TextsStored p) (pool : Pool)
include h

/-- The table has the texts of the pool, in order. -/
theorem records_pool :
    (p.tables.records pool.kind).toList = (p.pools.get pool).keys.map Record.ofText := by
  obtain ⟨added, hadded⟩ := h.remembers pool
  have hempty : (({} : Project).pools.get pool).entries = [] := by cases pool <;> rfl
  have hrecords : (p.tables.records pool.kind).toList = added.map Prod.snd := by
    rw [hadded.records]
    change (Tables.empty.records pool.kind).toList ++ _ = _
    rw [Tables.records_empty]
    rfl
  rw [Ordered.keys, hadded.entries, hempty, List.nil_append, map_fst_numberedFrom, hrecords,
    List.map_map]
  apply List.map_congr_left
  intro a ha
  have hrecord : a.2 = ⟨a.1, some (encodeText a.1)⟩ := hadded.holds a ha
  rw [hrecord]
  rfl

theorem map_name_records_pool :
    (p.tables.records pool.kind).toList.map Record.name = (p.pools.get pool).keys := by
  rw [h.records_pool, List.map_map]
  exact List.map_id _

theorem getElem?_records_pool (i : Nat) :
    (p.tables.records pool.kind)[i]? = ((p.pools.get pool).keys[i]?).map Record.ofText := by
  rw [← Array.getElem?_toList, h.records_pool, List.getElem?_map]

/-- The number of a text is its place among the texts of the pool. -/
theorem find?_pool {value : String} {index : UInt16} :
    (p.pools.get pool).find? value = some index ↔
      (p.pools.get pool).keys[index.toNat]? = some value := by
  have hplace : ∀ {found : UInt16}, (p.pools.get pool).find? value = some found →
      (p.pools.get pool).keys[found.toNat]? = some value := by
    intro found hfind
    obtain ⟨added, hadded⟩ := h.remembers pool
    obtain ⟨record, -, hrecord, rfl⟩ := hadded.record (by cases pool <;> rfl) hfind
    rw [h.getElem?_records_pool, Option.map_eq_some_iff] at hrecord
    obtain ⟨key, hkey, heq⟩ := hrecord
    rwa [(Record.mk.inj heq).1] at hkey
  constructor
  · exact hplace
  · intro hindex
    obtain ⟨found, hfind⟩ := Ordered.exists_find? (List.mem_of_getElem? hindex)
    have hfound := hplace hfind
    have hlt := (List.getElem?_eq_some_iff.1 hfound).1
    have hsame := (List.getElem?_inj hlt (p.pools.get pool).nodup_keys).1
      (hfound.trans hindex.symm)
    rwa [UInt16.toNat_inj.1 hsame] at hfind

theorem mirrors : MirrorsTable p pool where
  distinct := by
    rw [h.map_name_records_pool]
    exact (p.pools.get pool).nodup_keys
  numbered value index := by
    rw [h.find?_pool, h.getElem?_records_pool]
    constructor
    · intro hkey
      exact ⟨.ofText value, by rw [hkey]; rfl, rfl⟩
    · rintro ⟨record, hrecord, rfl⟩
      obtain ⟨key, hkey, rfl⟩ := Option.map_eq_some_iff.1 hrecord
      exact hkey
  encoded := by
    intro record hrecord
    rw [h.records_pool, List.mem_map] at hrecord
    obtain ⟨value, -, rfl⟩ := hrecord
    rfl

end TextsStored

/-! ## Requests -/

/-- Something that can be asked of a project by itself. Scripts, actions and dialogs belong to a
    map, whatever is known about it. -/
inductive Request
  | text (pool : Pool) (map : Option MapContext) (raw : String)
  | gameVariables
  | mapRecords
  | prototypes
  | dialogSkins
  | portraits
  | entityTypes
  | nullScript
  | image (path : String) (layout : TileLayout)
  | tileset (path : String)
  | outline (object : Tiled.Object)
  | entity (e : Entity) (path : Option UInt16)
  | script (map : MapContext) (name : String)
  | action (map : MapContext) (a : Action)
  | dialog (map : MapContext) (name context : String)
  | serialDialog (map : MapContext) (name context : String)
  | wholeMap (name : String) (settings : MapSettings)

namespace Request

/-- The type of the answer. -/
def Answer : Request → Type
  | text .. | nullScript | image .. | outline .. | entity .. | script .. | dialog ..
  | serialDialog .. => UInt16
  | gameVariables | mapRecords | prototypes | dialogSkins | portraits | entityTypes
  | wholeMap .. => Unit
  | tileset .. => Tileset
  | action .. => Bytes

/-- The step that answers. -/
def step (input : Input) : (r : Request) → Step Project r.Answer
  | text pool map raw => intern pool map raw
  | gameVariables => storeVariables input
  | mapRecords => reserveMaps input
  | prototypes => buildPrototypes input
  | dialogSkins => loadDialogSkins input
  | portraits => buildPortraits input
  | entityTypes => buildEntityTypes input
  | nullScript => addNullScript
  | image path layout => loadImage input path layout
  | tileset path => loadTileset input path
  | outline object => addOutline object
  | entity e path => addEntity e path
  | script map name => onMap map (compileScript input name)
  | action map a => onMap map (encodeAction input (compileScript input) a)
  | dialog map name context => onMap map (buildDialog input (compileScript input) name context)
  | serialDialog map name context =>
    onMap map (buildSerialDialog input (compileScript input) name context)
  | wholeMap name settings => buildMap input name settings

end Request

/-- The project after requests that come one after the other. One that fails does not stop those
    that come after it. -/
def afterRequests (input : Input) (requests : List Request) : Project :=
  requests.foldl (fun p r => (outcome (r.step input) p).2) {}

/-- Any operation. -/
def Unrestricted : Permit := fun _ _ => True

theorem Adds.unrestricted {σ α : Type} {view : σ → Project} {x : Step σ α} (h : Adds view x)
    (s : σ) : Performs Unrestricted view x s := (h s).mono fun _ _ _ => trivial

/-- The record of an entity type was claimed when its prototype was built. -/
theorem buildEntityTypes_performs (p : Project) :
    Performs Unrestricted id (buildEntityTypes input) p := by
  refine .get_bind (.forM (fun _ => True) trivial fun type _ q _ => ⟨?_, fun _ _ => trivial⟩)
  refine .bind ((loadTileset_adds _).unrestricted q) fun tileset q' _ => .get_bind ?_
  exact .except_bind fun bytes _ => .operation (.fill .entityTypes (by decide) _ bytes) trivial

theorem Request.performs (r : Request) (p : Project) :
    Performs Unrestricted id (r.step input) p := by
  have honMap : ∀ {α : Type} {x : Step MapState α}, Adds MapState.project x →
      ∀ map, Performs Unrestricted id (onMap map x) p := fun h map => .onMap (h.unrestricted _)
  have hcompile := compileScript_adds input
  cases r with
  | text pool map raw => exact (Adds.text pool map raw).unrestricted p
  | gameVariables => exact storeVariables_adds.unrestricted p
  | mapRecords => exact reserveMaps_adds.unrestricted p
  | prototypes => exact buildPrototypes_adds.unrestricted p
  | dialogSkins => exact loadDialogSkins_adds.unrestricted p
  | portraits => exact buildPortraits_adds.unrestricted p
  | entityTypes => exact buildEntityTypes_performs p
  | nullScript => exact addNullScript_adds.unrestricted p
  | image path layout => exact (loadImage_adds path layout).unrestricted p
  | tileset path => exact (loadTileset_adds path).unrestricted p
  | outline object => exact (addOutline_adds object).unrestricted p
  | entity e path => exact (addEntity_adds e path).unrestricted p
  | script map name => exact honMap (hcompile name) map
  | action map a => exact honMap (encodeAction_adds hcompile a) map
  | dialog map name context => exact honMap (buildDialog_adds hcompile name context) map
  | serialDialog map name context => exact honMap (buildSerialDialog_adds hcompile name context) map
  | wholeMap name settings =>
    exact buildMap_performs (fun _ _ _ => trivial) fun _ _ _ _ _ _ => trivial

theorem afterRequests_texts (input : Input) (requests : List Request) :
    TextsStored (afterRequests input requests) := by
  -- the induction is on the requests that are still to come
  have hfold : ∀ p, TextsStored p →
      TextsStored (requests.foldl (fun p r => (outcome (r.step input) p).2) p) := by
    induction requests with
    | nil => exact fun p hp => hp
    | cons r rest ih => exact fun p hp => ih _ (hp.performs (r.performs p))
  exact hfold {} .empty

/-- **Pools mirror their tables, whatever was asked for before and whatever failed.** There are at
    most 255 variables, and every text gets the answer that its pool has or will have. -/
theorem pools_mirror_tables (input : Input) (requests : List Request) :
    let p := afterRequests input requests
    (∀ pool, MirrorsTable p pool) ∧ p.tables.count .gameVariables ≤ 255 ∧
      ∀ pool map raw, TextAnswered p pool map raw := by
  have htexts := afterRequests_texts input requests
  exact ⟨htexts.mirrors, htexts.limit, htexts.answered⟩

end GameBundle
