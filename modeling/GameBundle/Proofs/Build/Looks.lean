import GameBundle.Proofs.Build.Always
import GameBundle.Proofs.Build.Linked
import GameBundle.Proofs.Build.TilesetRecords

set_option autoImplicit false

/-! # The records of entity types and portraits

The records of types and portraits are claimed in the order of their definitions, and each is filled
with what its encoder makes of the definition and of the tileset that this names. Types are claimed
before anything is loaded and filled after all portraits, whose numbers they need. No other pass
touches these records, so each definition is told by the record that has its place. -/

namespace GameBundle

variable {input : Input}

/-! ## Steps that leave portraits and types alone -/

/-- Nothing was done to portraits and types. -/
structure SameLooks (p q : Project) : Prop where
  portraits : q.portraits = p.portraits
  entityTypes : q.entityTypes = p.entityTypes
  records : ∀ kind ∈ lookKinds, q.tables.records kind = p.tables.records kind

theorem SameLooks.refl (p : Project) : SameLooks p p := ⟨rfl, rfl, fun _ _ => rfl⟩

theorem SameLooks.trans {p q r : Project} (hpq : SameLooks p q) (hqr : SameLooks q r) :
    SameLooks p r where
  portraits := hqr.portraits.trans hpq.portraits
  entityTypes := hqr.entityTypes.trans hpq.entityTypes
  records kind hkind := (hqr.records kind hkind).trans (hpq.records kind hkind)

/-- The operation has nothing to do with portraits and types. -/
structure Aside (p : Project) (o : Operation) : Prop where
  adds : ∀ kind, o.adds = some kind → kind ∉ lookKinds
  writes : ∀ kind i, o.writes = some (kind, i) → kind ∉ lookKinds
  remembers : ∀ f keeps, o = .remember f keeps → SparesLooks f

theorem Aside.of_adds {p : Project} {o : Operation} {kind : Kind} (hadds : o.adds = some kind)
    (hwrites : o.writes = none) (hkind : kind ∉ lookKinds) : Aside p o where
  adds k hk := by
    rw [hadds] at hk
    exact Option.some.inj hk ▸ hkind
  writes k i hk := by
    rw [hwrites] at hk
    cases hk
  remembers f keeps h := by
    subst h
    cases hadds

theorem Aside.of_writes {p : Project} {o : Operation} {kind : Kind} {i : Nat}
    (hadds : o.adds = none) (hwrites : o.writes = some (kind, i)) (hkind : kind ∉ lookKinds) :
    Aside p o where
  adds k hk := by
    rw [hadds] at hk
    cases hk
  writes k j hk := by
    rw [hwrites] at hk
    cases hk
    exact hkind
  remembers f keeps h := by
    subst h
    cases hwrites

theorem generous_aside : Generous (fun _ => True) Aside where
  texts p pool map raw _ := .of_adds rfl rfl (by cases pool <;> decide)
  pushes p kind other name bytes hkind := .of_adds rfl rfl hkind
  claims p kind other name _ hkind := .of_adds rfl rfl hkind
  fills p kind other index bytes hkind := .of_writes rfl rfl hkind
  updates p kind other index f hkind := .of_writes rfl rfl hkind
  remembers p f keeps hspares := {
    adds := fun _ h => by cases h
    writes := fun _ _ h => by cases h
    remembers := fun _ _ h => by
      cases h
      exact hspares }

theorem Aside.sameLooks {p : Project} {o : Operation} (ho : Aside p o) :
    SameLooks p (outcome o.step p).2 := by
  have hmemos : (outcome o.step p).2.portraits = p.portraits ∧
      (outcome o.step p).2.entityTypes = p.entityTypes := by
    cases o with
    | text pool map raw =>
      have hrest := (intern_remembers pool map raw p).rest
      exact ⟨congrArg (·.portraits) hrest, congrArg (·.entityTypes) hrest⟩
    | remember f keeps => exact ho.remembers f keeps rfl p
    | push | reserve | fill | update => exact ⟨rfl, rfl⟩
  refine ⟨hmemos.1, hmemos.2, fun kind hkind => ?_⟩
  rcases o.outcome_tables p with heq | ⟨other, record, hadds, heq⟩ | ⟨other, i, bytes, hwrites, heq⟩
  · rw [heq]
  · rw [heq]
    exact Tables.records_add_of_ne _ fun hsame => ho.adds other hadds (hsame ▸ hkind)
  · rw [heq]
    exact Tables.records_set_of_ne fun hsame => ho.writes other i hwrites (hsame ▸ hkind)

theorem Always.sameLooks {σ α : Type} {view : σ → Project} {x : Step σ α} {s t : σ} {a : α}
    (hx : Always Aside view x) (h : Yields x s a t) : SameLooks (view s) (view t) := by
  have hmoves := (hx s).moves .refl (fun _ _ _ => .trans) fun _ _ ho => ho.sameLooks
  rwa [show outcome x s = (.ok a, t) from h] at hmoves

/-! ## Claiming types -/

/-- A type is known as it was defined, and its index is its place. -/
structure Claimed (e : (String × EntityTypeDef) × Nat) (t : String × EntityType) : Prop where
  name : t.1 = e.1.1
  looks : t.2.looks = e.1.2
  index : t.2.index.toNat = e.2

/-- Types are claimed one behind the other. The induction is on the types that are still to be
    claimed. -/
theorem buildPrototypes_claimed {types : List ObjectTypeDef}
    {entries : List (String × EntityTypeDef)} {p q : Project}
    (hdifferent : (entries.map Prod.fst).Nodup)
    (hnew : ∀ e ∈ entries, p.entityTypes.find? e.1 = none)
    (h : Yields (entries.forM fun e => buildPrototype types e.1 e.2) p () q) :
    (∃ added, q.entityTypes.entries = p.entityTypes.entries ++ added ∧
      List.Forall₂ Claimed (entries.zipIdx (p.tables.count .entityTypes)) added) ∧
      (q.tables.records .entityTypes).toList =
        (p.tables.records .entityTypes).toList ++ entries.map (fun e => ⟨e.1, none⟩) ∧
      q.portraits = p.portraits ∧ q.tables.records .portraits = p.tables.records .portraits := by
  induction entries generalizing p with
  | nil =>
    obtain rfl := yields_forM_nil.1 h
    exact ⟨⟨[], (List.append_nil _).symm, .nil⟩, (List.append_nil _).symm, rfl, rfl⟩
  | cons e rest ih =>
    obtain ⟨r, hfirst, hrest⟩ := yields_forM_cons.1 h
    rw [List.map_cons, List.nodup_cons] at hdifferent
    obtain ⟨prototype, hroom, rfl⟩ := yields_buildPrototype hfirst
    obtain ⟨⟨added, hadded, hclaimed⟩, hrecords, hportraits, htable⟩ :=
      ih hdifferent.2 (find?_put_rest hdifferent.1 hnew) hrest
    have hentries := Ordered.entries_put (m := p.entityTypes)
      (⟨p.next .entityTypes, prototype, e.2⟩ : EntityType) (hnew e List.mem_cons_self)
    have hfirst : Claimed (e, p.tables.count .entityTypes)
        (e.1, ⟨p.next .entityTypes, prototype, e.2⟩) :=
      ⟨rfl, rfl, UInt16.toNat_ofNat_of_lt' hroom⟩
    have hcount : (p.tables.add .entityTypes ⟨e.1, none⟩).count .entityTypes =
        p.tables.count .entityTypes + 1 := by
      rw [Tables.count_add, if_pos rfl]
    refine ⟨⟨_ :: added, ?_, .cons hfirst (hcount ▸ hclaimed)⟩, ?_, hportraits, ?_⟩
    · exact hadded.trans ((congrArg (· ++ added) hentries).trans (List.append_assoc _ _ _))
    · refine hrecords.trans ((congrArg (· ++ _) (Tables.toList_records_add _)).trans ?_)
      rw [List.append_assoc]
      rfl
    · exact htable.trans (Tables.records_add_of_ne _ (by decide))

/-- Every definition of a type is claimed, and its record is empty. -/
structure TypesClaimed (input : Input) (p : Project) : Prop where
  types : List.Forall₂ Claimed (input.definitions.entityTypes.entries.zipIdx 0)
    p.entityTypes.entries
  records : (p.tables.records .entityTypes).toList =
    input.definitions.entityTypes.entries.map fun e => ⟨e.1, none⟩

namespace TypesClaimed

variable {p q : Project}

theorem of_same (h : TypesClaimed input p) (htypes : q.entityTypes = p.entityTypes)
    (hrecords : q.tables.records .entityTypes = p.tables.records .entityTypes) :
    TypesClaimed input q := ⟨by rw [htypes]; exact h.types, by rw [hrecords]; exact h.records⟩

/-- The places are the indices, so no two are the same. -/
theorem nodup (h : TypesClaimed input p) :
    (p.entityTypes.entries.map fun t => t.2.index.toNat).Nodup := by
  have hplaces : (input.definitions.entityTypes.entries.zipIdx 0).map Prod.snd =
      p.entityTypes.entries.map fun t => t.2.index.toNat :=
    (map_eq_of_forall₂ (h.types.imp fun _ _ h => h.index)).symm
  rw [← hplaces, List.zipIdx_map_snd]
  exact List.nodup_range'

theorem record (h : TypesClaimed input p) {t : String × EntityType}
    (ht : t ∈ p.entityTypes.entries) :
    (p.tables.records .entityTypes)[t.2.index.toNat]? = some ⟨t.1, none⟩ := by
  obtain ⟨⟨e, i⟩, hi, hclaim⟩ := exists_of_mem_forall₂ h.types ht
  have hentry := List.mem_zipIdx_iff_getElem?.1 hi
  rw [hclaim.index, hclaim.name, ← Array.getElem?_toList, h.records, List.getElem?_map, hentry]
  rfl

theorem type (h : TypesClaimed input p) {i : Nat} {name : String} {looks : EntityTypeDef}
    (hi : input.definitions.entityTypes.entries[i]? = some (name, looks)) :
    ∃ t ∈ p.entityTypes.entries, t.1 = name ∧ t.2.looks = looks ∧ t.2.index.toNat = i := by
  have hplace : (input.definitions.entityTypes.entries.zipIdx 0)[i]? = some ((name, looks), i) := by
    rw [List.getElem?_zipIdx, hi, Option.map_some, Nat.zero_add]
  obtain ⟨t, ht, hclaim⟩ := forall₂_getElem? h.types hplace
  exact ⟨t, List.mem_of_getElem? ht, hclaim.name, hclaim.looks, hclaim.index⟩

end TypesClaimed

/-- Nothing is there before the types are claimed. -/
theorem buildPrototypes_types {p q : Project} (hnone : SameLooks {} p)
    (h : Yields (buildPrototypes input) p () q) :
    TypesClaimed input q ∧ q.portraits = ∅ ∧ q.tables.records .portraits = #[] := by
  obtain ⟨⟨known, hknown, hclaimed⟩, hrecords, hportraits, htable⟩ :=
    buildPrototypes_claimed input.definitions.entityTypes.nodup_keys
      (fun e _ => by rw [hnone.entityTypes]; rfl) h
  have hfirst : p.tables.count .entityTypes = 0 := by
    rw [Tables.count, hnone.records _ (by decide)]
    exact congrArg Array.size (Tables.records_empty _)
  rw [hfirst] at hclaimed
  refine ⟨⟨?_, ?_⟩, hportraits.trans hnone.portraits, ?_⟩
  · rw [hknown, hnone.entityTypes]
    exact hclaimed
  · rw [hrecords, hnone.records _ (by decide)]
    rfl
  · rw [htable, hnone.records _ (by decide)]
    exact Tables.records_empty _

/-! ## Numbering portraits -/

/-- Which number a portrait has. -/
abbrev Numbers : Type := String → Nat → Prop

/-- The numbers of the portraits that are remembered. -/
def Ordered.numbers (portraits : Ordered UInt16) : Numbers := fun name n =>
  ∃ index, portraits.find? name = some index ∧ index.toNat = n

/-- The records of portraits are in the order of the names, and so are their numbers. -/
structure PortraitsNumbered (p : Project) : Prop where
  names : (p.tables.records .portraits).toList.map Record.name = p.portraits.keys
  places : ∀ name n, p.portraits.numbers name n → p.portraits.keys[n]? = some name

theorem PortraitsNumbered.of_same {p q : Project} (h : PortraitsNumbered p)
    (hportraits : q.portraits = p.portraits)
    (hrecords : q.tables.records .portraits = p.tables.records .portraits) :
    PortraitsNumbered q :=
  ⟨by rw [hrecords, hportraits]; exact h.names, by rw [hportraits]; exact h.places⟩

/-- A portrait gets the next number. -/
theorem PortraitsNumbered.claim {p : Project} {name : String} (h : PortraitsNumbered p)
    (hnew : name ∉ p.portraits.keys) (hroom : p.tables.count .portraits < UInt16.size) :
    PortraitsNumbered { p.add .portraits ⟨name, none⟩ with
      portraits := p.portraits.put name (p.next .portraits) } where
  names := by
    change ((p.tables.add .portraits ⟨name, none⟩).records .portraits).toList.map Record.name =
      (p.portraits.put name (p.next .portraits)).keys
    rw [Tables.toList_records_add, List.map_append, h.names, Ordered.keys_put_new hnew]
    rfl
  places := by
    have hcount : p.tables.count .portraits = p.portraits.keys.length := by
      rw [Tables.count_eq_length, ← h.names, List.length_map]
    rintro other n ⟨index, hindex, rfl⟩
    change (p.portraits.put name (p.next .portraits)).find? other = some index at hindex
    change (p.portraits.put name (p.next .portraits)).keys[index.toNat]? = some other
    rw [Ordered.keys_put_new hnew]
    rw [Ordered.find?_put] at hindex
    split at hindex
    · next heq =>
      subst heq
      cases hindex
      rw [Project.next, UInt16.toNat_ofNat_of_lt' hroom, hcount, List.getElem?_concat_length]
    · have hplace := h.places other _ ⟨index, hindex, rfl⟩
      rw [List.getElem?_append_left (List.getElem?_eq_some_iff.1 hplace).1, hplace]

theorem buildPortrait_numbered {p q : Project} {name : String} {portrait : PortraitDef}
    (hp : PortraitsNumbered p) (hnew : name ∉ p.portraits.keys)
    (h : Yields (buildPortrait input name portrait) p () q) :
    PortraitsNumbered q ∧ q.portraits.keys = p.portraits.keys ++ [name] ∧
      q.entityTypes = p.entityTypes ∧
      q.tables.records .entityTypes = p.tables.records .entityTypes := by
  obtain ⟨tileset, r, bytes, hroom, htileset, -, rfl⟩ := yields_buildPortrait h
  have hsame : SameLooks _ r :=
    (generous_aside.loadTileset portrait.tileset).sameLooks htileset
  have hclaimed := hp.claim hnew hroom
  have hloaded := hclaimed.of_same hsame.portraits (hsame.records _ (by decide))
  refine ⟨⟨?_, hloaded.places⟩, ?_, hsame.entityTypes, ?_⟩
  · rw [Project.fill, Tables.map_name_records_set]
    exact hloaded.names
  · have hkeys := congrArg Ordered.keys hsame.portraits
    exact hkeys.trans (Ordered.keys_put_new hnew)
  · rw [Project.fill, Tables.records_set_of_ne (by decide)]
    exact (hsame.records _ (by decide)).trans (Tables.records_add_of_ne _ (by decide))

/-- The induction is on the portraits that are still to be built. -/
theorem buildPortraits_numbered {p q : Project} {entries : List (String × PortraitDef)}
    (hp : PortraitsNumbered p) (hdifferent : (p.portraits.keys ++ entries.map Prod.fst).Nodup)
    (h : Yields (entries.forM fun e => buildPortrait input e.1 e.2) p () q) :
    PortraitsNumbered q ∧ q.portraits.keys = p.portraits.keys ++ entries.map Prod.fst ∧
      q.entityTypes = p.entityTypes ∧
      q.tables.records .entityTypes = p.tables.records .entityTypes := by
  induction entries generalizing p with
  | nil =>
    obtain rfl := yields_forM_nil.1 h
    exact ⟨hp, (List.append_nil _).symm, rfl, rfl⟩
  | cons e rest ih =>
    obtain ⟨r, hfirst, hrest⟩ := yields_forM_cons.1 h
    -- the name moves from those that are still to come to those that are known
    have hsplit : p.portraits.keys ++ (e :: rest).map Prod.fst =
        (p.portraits.keys ++ [e.1]) ++ rest.map Prod.fst := by simp
    rw [hsplit] at hdifferent ⊢
    have hnew : e.1 ∉ p.portraits.keys := by
      have hconcat := (List.nodup_append.1 hdifferent).1
      rw [List.nodup_append] at hconcat
      exact fun hmem => hconcat.2.2 _ hmem _ (List.mem_singleton_self _) rfl
    obtain ⟨hr, hkeys, htypes, hrecords⟩ := buildPortrait_numbered hp hnew hfirst
    rw [← hkeys] at hdifferent
    obtain ⟨hq, hkeys', htypes', hrecords'⟩ := ih hr hdifferent hrest
    exact ⟨hq, by rw [hkeys', hkeys], htypes'.trans htypes, hrecords'.trans hrecords⟩

/-! ## Filling portraits -/

/-- The record at a place is what an encoder makes of the tileset that is remembered for a path. -/
def Project.EncodedAt (p : Project) (kind : Kind) (i : Nat) (name path : String)
    (encode : Tileset → Except Failure Bytes) : Prop :=
  ∃ tileset bytes, p.tilesets.find? (Text.baseName path) = some tileset ∧
    encode tileset = .ok bytes ∧ (p.tables.records kind)[i]? = some ⟨name, some bytes⟩

theorem Project.EncodedAt.mono {p q : Project} {kind : Kind} {i : Nat} {name path : String}
    {encode : Tileset → Except Failure Bytes} (h : p.EncodedAt kind i name path encode)
    (hsame : (q.tables.records kind)[i]? = (p.tables.records kind)[i]?)
    (hkept : KeepsTilesets p q) : q.EncodedAt kind i name path encode := by
  obtain ⟨tileset, bytes, htileset, hbytes, hrecord⟩ := h
  exact ⟨tileset, bytes, hkept _ _ htileset, hbytes, hsame.trans hrecord⟩

/-- Some portraits were added behind the others. -/
structure PortraitsAdded (entries : List (String × PortraitDef)) (p q : Project) : Prop where
  count : q.tables.count .portraits = p.tables.count .portraits + entries.length
  others : ∀ i < p.tables.count .portraits,
    (q.tables.records .portraits)[i]? = (p.tables.records .portraits)[i]?
  tilesets : KeepsTilesets p q
  encoded : ∀ (i : Nat) name portrait, entries[i]? = some (name, portrait) →
    q.EncodedAt .portraits (p.tables.count .portraits + i) name portrait.tileset
      (encodePortrait name portrait)

theorem PortraitsAdded.nil (p : Project) : PortraitsAdded [] p p where
  count := rfl
  others _ _ := rfl
  tilesets _ _ h := h
  encoded _ _ _ hi := by cases hi

theorem PortraitsAdded.cons {p q r : Project} {e : String × PortraitDef}
    {rest : List (String × PortraitDef)} (hpq : PortraitsAdded [e] p q)
    (hqr : PortraitsAdded rest q r) : PortraitsAdded (e :: rest) p r where
  count := by
    rw [hqr.count, hpq.count, List.length_singleton, List.length_cons, Nat.add_assoc,
      Nat.add_comm 1]
  others i hi := by
    rw [hqr.others i (by rw [hpq.count]; exact Nat.lt_add_right _ hi), hpq.others i hi]
  tilesets := hpq.tilesets.trans hqr.tilesets
  encoded i name portrait hi := by
    have hcount : q.tables.count .portraits = p.tables.count .portraits + 1 := hpq.count
    cases i with
    | zero =>
      refine (hpq.encoded 0 name portrait hi).mono (hqr.others _ ?_) hqr.tilesets
      rw [hcount]
      exact Nat.lt_succ_self _
    | succ i =>
      have hlater := hqr.encoded i name portrait hi
      rwa [hcount, Nat.add_assoc, Nat.add_comm 1] at hlater

theorem buildPortrait_added {p q : Project} {name : String} {portrait : PortraitDef}
    (h : Yields (buildPortrait input name portrait) p () q) :
    PortraitsAdded [(name, portrait)] p q := by
  obtain ⟨tileset, r, bytes, hroom, htileset, hbytes, rfl⟩ := yields_buildPortrait h
  obtain ⟨hkept, hfound⟩ := loadTileset_remembers htileset
  have hrecords : r.tables.records .portraits =
      (p.tables.add .portraits ⟨name, none⟩).records .portraits :=
    ((generous_aside.loadTileset portrait.tileset).sameLooks htileset).records _ (by decide)
  have hplace : (p.next .portraits).toNat = p.tables.count .portraits :=
    UInt16.toNat_ofNat_of_lt' hroom
  rw [hplace]
  exact {
    count := by
      rw [Project.fill, Tables.count_set, Tables.count, hrecords, ← Tables.count, Tables.count_add,
        if_pos rfl, List.length_singleton]
    others := fun i hi => by
      rw [Project.fill, Tables.getElem?_records_set_ne fun heq => Nat.ne_of_lt hi heq.2, hrecords,
        Tables.getElem?_records_add, if_neg fun heq => Nat.ne_of_lt hi heq.2]
    tilesets := hkept
    encoded := fun i other looks hi => by
      obtain ⟨rfl, heq⟩ : i = 0 ∧ (name, portrait) = (other, looks) := by
        cases i with
        | zero => exact ⟨rfl, Option.some.inj hi⟩
        | succ i => cases hi
      cases heq
      refine ⟨tileset, bytes, hfound, hbytes, ?_⟩
      rw [Nat.add_zero, Project.fill, Tables.getElem?_records_set, if_pos rfl, hrecords,
        Tables.getElem?_records_add, if_pos ⟨rfl, rfl⟩, Option.map_some] }

/-- The induction is on the portraits that are still to be built. -/
theorem buildPortraits_added {p q : Project} {entries : List (String × PortraitDef)}
    (h : Yields (entries.forM fun e => buildPortrait input e.1 e.2) p () q) :
    PortraitsAdded entries p q := by
  induction entries generalizing p with
  | nil =>
    obtain rfl := yields_forM_nil.1 h
    exact .nil p
  | cons e rest ih =>
    obtain ⟨r, hfirst, hrest⟩ := yields_forM_cons.1 h
    exact (buildPortrait_added hfirst).cons (ih hrest)

/-! ## Filling types -/

/-- Nothing was done to portraits and types but that the records at the places were filled. -/
structure Completing (places : List Nat) (p q : Project) : Prop where
  portraits : q.portraits = p.portraits
  table : q.tables.records .portraits = p.tables.records .portraits
  names : (q.tables.records .entityTypes).toList.map Record.name =
    (p.tables.records .entityTypes).toList.map Record.name
  others : ∀ i ∉ places,
    (q.tables.records .entityTypes)[i]? = (p.tables.records .entityTypes)[i]?
  tilesets : KeepsTilesets p q

theorem buildEntityType_encoded {p q : Project} {name : String} {type : EntityType}
    (hclaimed : (p.tables.records .entityTypes)[type.index.toNat]? = some ⟨name, none⟩)
    (h : Yields (buildEntityType input name type) p () q) :
    Completing [type.index.toNat] p q ∧
      q.EncodedAt .entityTypes type.index.toNat name type.looks.tileset
        (encodeEntityType p.portraits name type.looks) := by
  obtain ⟨tileset, u, bytes, htileset, hbytes, -, rfl⟩ := yields_buildEntityType h
  obtain ⟨hkept, hfound⟩ := loadTileset_remembers htileset
  have hsame : SameLooks p u :=
    (generous_aside.loadTileset type.looks.tileset).sameLooks htileset
  have htypes := hsame.records .entityTypes (by decide)
  rw [hsame.portraits] at hbytes
  refine ⟨{
    portraits := hsame.portraits
    table := (Tables.records_set_of_ne (by decide)).trans (hsame.records _ (by decide))
    names := by rw [Project.fill, Tables.map_name_records_set, htypes]
    others := fun i hi => ?_
    tilesets := hkept }, tileset, bytes, hfound, hbytes, ?_⟩
  · have hother : ¬(Kind.entityTypes = .entityTypes ∧ i = type.index.toNat) := fun heq =>
      hi (List.mem_singleton.2 heq.2)
    rw [Project.fill, Tables.getElem?_records_set_ne hother, htypes]
  · rw [Project.fill, Tables.getElem?_records_set, if_pos rfl, htypes, hclaimed, Option.map_some]

/-- Every type is completed, and each touches its own record only. The induction is on the types
    that are still to be completed. -/
theorem fillTypes_encoded {known : List (String × EntityType)} {p q : Project}
    (hdifferent : (known.map fun t => t.2.index.toNat).Nodup)
    (hclaimed : ∀ t ∈ known,
      (p.tables.records .entityTypes)[t.2.index.toNat]? = some ⟨t.1, none⟩)
    (h : Yields (known.forM fun t => buildEntityType input t.1 t.2) p () q) :
    Completing (known.map fun t => t.2.index.toNat) p q ∧
      ∀ t ∈ known, q.EncodedAt .entityTypes t.2.index.toNat t.1 t.2.looks.tileset
        (encodeEntityType p.portraits t.1 t.2.looks) := by
  induction known generalizing p with
  | nil =>
    obtain rfl := yields_forM_nil.1 h
    exact ⟨⟨rfl, rfl, rfl, fun _ _ => rfl, fun _ _ h => h⟩, by simp⟩
  | cons t rest ih =>
    obtain ⟨r, hfirst, hrest⟩ := yields_forM_cons.1 h
    rw [List.map_cons, List.nodup_cons] at hdifferent
    rw [List.forall_mem_cons] at hclaimed
    obtain ⟨hone, hencoded⟩ := buildEntityType_encoded hclaimed.1 hfirst
    obtain ⟨hothers, hall⟩ := ih hdifferent.2 (fun other hother => by
      have hne : other.2.index.toNat ≠ t.2.index.toNat := fun heq =>
        hdifferent.1 (heq ▸ List.mem_map_of_mem hother)
      rw [hone.others _ (by simpa using hne), hclaimed.2 other hother]) hrest
    refine ⟨{
      portraits := hothers.portraits.trans hone.portraits
      table := hothers.table.trans hone.table
      names := hothers.names.trans hone.names
      others := fun i hi => ?_
      tilesets := hone.tilesets.trans hothers.tilesets }, fun other hother => ?_⟩
    · rw [List.map_cons, List.mem_cons, not_or] at hi
      rw [hothers.others i hi.2, hone.others i (by simpa using hi.1)]
    · rcases List.mem_cons.1 hother with rfl | hother
      · exact hencoded.mono (hothers.others _ hdifferent.1) hothers.tilesets
      · rw [← hone.portraits]
        exact hall other hother

theorem buildEntityTypes_encoded {p q : Project} (hclaimed : TypesClaimed input p)
    (h : Yields (buildEntityTypes input) p () q) :
    Completing (p.entityTypes.entries.map fun t => t.2.index.toNat) p q ∧
      ∀ (i : Nat) name looks, input.definitions.entityTypes.entries[i]? = some (name, looks) →
        q.EncodedAt .entityTypes i name looks.tileset
          (encodeEntityType p.portraits name looks) := by
  simp only [buildEntityTypes, yields_bind, yields_get] at h
  obtain ⟨_, _, ⟨rfl, rfl⟩, h⟩ := h
  obtain ⟨hcompleting, hall⟩ := fillTypes_encoded hclaimed.nodup (fun _ => hclaimed.record) h
  refine ⟨hcompleting, fun i name looks hi => ?_⟩
  obtain ⟨t, ht, rfl, rfl, rfl⟩ := hclaimed.type hi
  exact hall t ht

/-! ## Whole builds -/

/-- Each definition of a portrait or a type has a record of its own at its place. -/
structure LooksEncoded (input : Input) (p : Project) : Prop where
  numbered : PortraitsNumbered p
  keys : p.portraits.keys = input.definitions.portraits.keys
  names : (p.tables.records .entityTypes).toList.map Record.name =
    input.definitions.entityTypes.keys
  portraits : ∀ (i : Nat) name portrait,
    input.definitions.portraits.entries[i]? = some (name, portrait) →
      p.EncodedAt .portraits i name portrait.tileset (encodePortrait name portrait)
  types : ∀ (i : Nat) name looks, input.definitions.entityTypes.entries[i]? = some (name, looks) →
    p.EncodedAt .entityTypes i name looks.tileset (encodeEntityType p.portraits name looks)

theorem LooksEncoded.of_same {p q : Project} (h : LooksEncoded input p) (hsame : SameLooks p q)
    (hkept : KeepsTilesets p q) : LooksEncoded input q where
  numbered := h.numbered.of_same hsame.portraits (hsame.records _ (by decide))
  keys := by rw [hsame.portraits, h.keys]
  names := by rw [hsame.records _ (by decide), h.names]
  portraits i name portrait hi :=
    (h.portraits i name portrait hi).mono (by rw [hsame.records _ (by decide)]) hkept
  types i name looks hi := by
    rw [hsame.portraits]
    exact (h.types i name looks hi).mono (by rw [hsame.records _ (by decide)]) hkept

theorem storeVariables_aside : Always Aside id (storeVariables input) :=
  .forM fun _ _ => .bind (generous_aside.text (fun _ => trivial) _) fun _ => .pure _

theorem reserveMaps_aside : Always Aside id (reserveMaps input) := by
  apply Always.forM
  intro name _
  have hreserve : Always Aside id (onTables (Tables.reserve .maps name)) := fun _ =>
    .operation (.reserve .maps (by decide) name) (.of_adds rfl rfl (by decide))
  exact .bind hreserve fun index =>
    generous_aside.remember (fun _ => ⟨rfl, rfl⟩) fun _ => ⟨rfl, rfl⟩

/-- **Each definition is told by its record** when everything that the maps share is built. -/
theorem buildShared_encoded {p : Project} (h : Yields (buildShared input) {} () p) :
    LooksEncoded input p := by
  simp only [buildShared, yields_bind, yields_pure] at h
  obtain ⟨_, p₁, hvariables, _, p₂, hmaps, _, p₃, hprototypes, _, p₄, hskins, _, p₅, hportraits, _,
    p₆, htypes, _, p₇, hnull, -, rfl⟩ := h
  have hnone : SameLooks {} p₂ :=
    (storeVariables_aside.sameLooks hvariables).trans (reserveMaps_aside.sameLooks hmaps)
  obtain ⟨hclaimed, hportraits₃, htable₃⟩ := buildPrototypes_types hnone hprototypes
  have hskins : SameLooks p₃ p₄ := generous_aside.loadDialogSkins.sameLooks hskins
  have hempty : p₄.portraits = ∅ ∧ p₄.tables.records .portraits = #[] := by
    rw [hskins.portraits, hskins.records _ (by decide), hportraits₃, htable₃]
    exact ⟨rfl, rfl⟩
  have hstart : PortraitsNumbered p₄ := by
    constructor
    · rw [hempty.1, hempty.2]
      rfl
    · rw [hempty.1]
      rintro name n ⟨index, hindex, -⟩
      cases hindex
  obtain ⟨hnumbered, hkeys, htypes₅, hrecords₅⟩ := buildPortraits_numbered hstart (by
    rw [hempty.1]
    exact input.definitions.portraits.nodup_keys) hportraits
  have hadded := buildPortraits_added hportraits
  have hclaimed₅ : TypesClaimed input p₅ := hclaimed.of_same
    (htypes₅.trans hskins.entityTypes) (hrecords₅.trans (hskins.records _ (by decide)))
  obtain ⟨hcompleting, htypes₆⟩ := buildEntityTypes_encoded hclaimed₅ htypes
  have hdone : LooksEncoded input p₆ := {
    numbered := hnumbered.of_same hcompleting.portraits hcompleting.table
    keys := by
      rw [hcompleting.portraits, hkeys, hempty.1]
      rfl
    names := by
      rw [hcompleting.names, hclaimed₅.records, List.map_map]
      rfl
    portraits := fun i name portrait hi => by
      have hencoded := hadded.encoded i name portrait hi
      rw [Tables.count, hempty.2, Array.size_empty, Nat.zero_add] at hencoded
      exact hencoded.mono (by rw [hcompleting.table]) hcompleting.tilesets
    types := by
      rw [hcompleting.portraits]
      exact htypes₆ }
  have hlast : SameTilesets p₆ p₇ := by
    rw [addNullScript_spec hnull]
    rfl
  exact hdone.of_same (generous_aside.addNullScript.sameLooks hnull) hlast.keeps

/-- The maps leave these records alone. -/
theorem lookRecords_of_build {tables : Tables} (h : build input = .ok tables) :
    ∃ p, Yields (buildShared input) {} () p ∧
      ∀ kind ∈ lookKinds, tables.records kind = p.tables.records kind := by
  obtain ⟨hbuild, rfl⟩ := yields_of_build h
  obtain ⟨_, p, hshared, hmaps⟩ := yields_bind.1 hbuild
  have haside : Always Aside id
      ((input.definitions.maps.entries.take input.definitions.maps.size).forM
        fun map => buildMap input map.1 map.2) :=
    .forM fun map _ => generous_aside.buildMap (fun _ _ _ _ _ _ _ _ _ => trivial) _ _
  exact ⟨p, hshared, (haside.sameLooks hmaps).records⟩

end GameBundle
