import GameBundle.Proofs.Build.Encoding

set_option autoImplicit false

/-! # Sound projects

A project is sound if every record that has its bytes is padded and refers to records that exist,
and everything that is remembered by name is in range as well. Records are only added or given their
bytes, so a project stays sound as long as the new bytes are right at that moment. -/

namespace GameBundle

/-! ## What is remembered -/

/-- Every value of a memo is in `P`. -/
def Ordered.All {α : Type} (m : Ordered α) (P : α → Prop) : Prop :=
  ∀ key value, m.find? key = some value → P value

namespace Ordered.All

variable {α : Type} {m : Ordered α} {P Q : α → Prop}

theorem empty (P : α → Prop) : All ∅ P := fun _ _ h => nomatch h

theorem imp (h : m.All P) (hPQ : ∀ value, P value → Q value) : m.All Q :=
  fun key value hfind => hPQ value (h key value hfind)

theorem put {key : String} {value : α} (h : m.All P) (hvalue : P value) :
    (m.put key value).All P := by
  intro other found hfind
  rw [Ordered.find?_put] at hfind
  split at hfind
  · obtain rfl := Option.some.inj hfind
    exact hvalue
  · exact h other found hfind

end Ordered.All

/-- Everything that is remembered by name is in range. -/
structure Project.Memos (count : Counts) (p : Project) : Prop where
  texts : ∀ pool, (p.pools.get pool).All (·.toNat < count pool.kind)
  maps : p.maps.All (·.toNat < count .maps)
  tilesets : p.tilesets.All (Tileset.Known count)
  images : p.images.All (·.toNat < count .images)
  entityTypes : p.entityTypes.All (·.index.toNat < count .entityTypes)
  portraits : p.portraits.All (·.toNat < count .portraits)
  dialogSkins : p.dialogSkins.All (·.toNat < count .tilesets)
  dialogs : p.dialogs.All (·.toNat < count .dialogs)
  serialDialogs : p.serialDialogs.All (·.toNat < count .serialDialogs)

theorem Project.Memos.mono {count more : Counts} {p : Project} (h : p.Memos count)
    (hmore : ∀ kind, count kind ≤ more kind) : p.Memos more where
  texts pool := (h.texts pool).imp fun _ hlt => Nat.lt_of_lt_of_le hlt (hmore _)
  maps := h.maps.imp fun _ hlt => Nat.lt_of_lt_of_le hlt (hmore _)
  tilesets := h.tilesets.imp fun _ hknown => hknown.mono hmore
  images := h.images.imp fun _ hlt => Nat.lt_of_lt_of_le hlt (hmore _)
  entityTypes := h.entityTypes.imp fun _ hlt => Nat.lt_of_lt_of_le hlt (hmore _)
  portraits := h.portraits.imp fun _ hlt => Nat.lt_of_lt_of_le hlt (hmore _)
  dialogSkins := h.dialogSkins.imp fun _ hlt => Nat.lt_of_lt_of_le hlt (hmore _)
  dialogs := h.dialogs.imp fun _ hlt => Nat.lt_of_lt_of_le hlt (hmore _)
  serialDialogs := h.serialDialogs.imp fun _ hlt => Nat.lt_of_lt_of_le hlt (hmore _)

/-- The tables themselves are not remembered by name. -/
theorem Project.Memos.of_tables {count : Counts} {p : Project} (h : p.Memos count)
    (tables : Tables) : Project.Memos count { p with tables } :=
  ⟨h.texts, h.maps, h.tilesets, h.images, h.entityTypes, h.portraits, h.dialogSkins, h.dialogs,
    h.serialDialogs⟩

/-! ## Soundness -/

/-- Every record with bytes is whole, and all memos are in range. -/
structure Project.Sound (p : Project) : Prop where
  records : ∀ (kind : Kind) (i : Nat) (name : String) (bytes : Bytes),
    (p.tables.records kind)[i]? = some ⟨name, some bytes⟩ → Whole p.tables.count kind bytes
  memos : p.Memos p.tables.count

namespace Project

variable {p q : Project} {kind : Kind}

theorem count_le_add (record : Record) (other : Kind) :
    p.tables.count other ≤ (p.add kind record).tables.count other := by
  rw [add, Tables.count_add]
  exact Nat.le_add_right _ _

theorem Sound.empty : Sound {} where
  records kind i name bytes h := by
    change ((Tables.empty).records kind)[i]? = _ at h
    rw [Tables.records_empty] at h
    cases h
  memos := {
    texts := fun pool => by cases pool <;> exact .empty _
    maps := .empty _
    tilesets := .empty _
    images := .empty _
    entityTypes := .empty _
    portraits := .empty _
    dialogSkins := .empty _
    dialogs := .empty _
    serialDialogs := .empty _ }

theorem Sound.add {record : Record} (h : p.Sound)
    (hwhole : ∀ bytes, record.bytes = some bytes → Whole p.tables.count kind bytes) :
    (p.add kind record).Sound where
  records other i name bytes hrecord := by
    refine Whole.mono ?_ (count_le_add record)
    rw [Project.add, Tables.getElem?_records_add] at hrecord
    split at hrecord
    · next hnew =>
      obtain rfl := Option.some.inj hrecord
      exact hnew.1 ▸ hwhole bytes rfl
    · exact h.records other i name bytes hrecord
  memos := (h.memos.mono (count_le_add record)).of_tables _

/-- A record that is only claimed has nothing to be wrong. -/
theorem Sound.claim (h : p.Sound) (kind : Kind) (name : String) :
    (p.add kind ⟨name, none⟩).Sound := h.add fun _ hbytes => nomatch hbytes

theorem Sound.fill {i : Nat} {bytes : Bytes} (h : p.Sound)
    (hwhole : Whole p.tables.count kind bytes) : (p.fill kind i bytes).Sound := by
  have hcount : (p.fill kind i bytes).tables.count = p.tables.count :=
    funext fun _ => Tables.count_set
  constructor
  · intro other j name stored hrecord
    rw [hcount]
    by_cases heq : other = kind ∧ j = i
    · obtain ⟨rfl, rfl⟩ := heq
      rw [Project.fill, Tables.getElem?_records_set, if_pos rfl, Option.map_eq_some_iff] at hrecord
      obtain ⟨record, -, hrecord⟩ := hrecord
      cases hrecord
      exact hwhole
    · rw [Project.fill, Tables.getElem?_records_set_ne heq] at hrecord
      exact h.records other j name stored hrecord
  · rw [hcount]
    exact h.memos.of_tables _

/-- The tables are the same, and something more is remembered. -/
theorem Sound.remember (h : p.Sound) (htables : q.tables = p.tables)
    (hmemos : q.Memos p.tables.count) : q.Sound where
  records := by
    rw [htables]
    exact h.records
  memos := by rwa [htables]

end Project

/-! ## Growing -/

/-- A sound project was built on top of another one, and everything that was begun is finished. -/
structure Enlarges (p q : Project) : Prop where
  sound : q.Sound
  counts : ∀ kind, p.tables.count kind ≤ q.tables.count kind
  completes : p.tables.Completes q.tables
  entityTypes : q.entityTypes = p.entityTypes

namespace Enlarges

variable {p q r : Project} {kind : Kind}

theorem refl (h : p.Sound) : Enlarges p p := ⟨h, fun _ => Nat.le_refl _, .refl _, rfl⟩

theorem trans (hpq : Enlarges p q) (hqr : Enlarges q r) : Enlarges p r where
  sound := hqr.sound
  counts kind := Nat.le_trans (hpq.counts kind) (hqr.counts kind)
  completes := hpq.completes.trans hqr.completes
  entityTypes := hqr.entityTypes.trans hpq.entityTypes

theorem remember (h : Enlarges p q) (htables : r.tables = q.tables)
    (hmemos : r.Memos q.tables.count) (htypes : r.entityTypes = q.entityTypes) :
    Enlarges p r where
  sound := h.sound.remember htables hmemos
  counts kind := by
    rw [htables]
    exact h.counts kind
  completes := by
    rw [htables]
    exact h.completes
  entityTypes := htypes.trans h.entityTypes

/-- A record is claimed, more is built, and then the record gets its bytes. -/
theorem claimed {name : String} {bytes : Bytes} (h : Enlarges (p.add kind ⟨name, none⟩) q)
    (hroom : p.tables.count kind < UInt16.size) (hwhole : Whole q.tables.count kind bytes) :
    Enlarges p (q.fill kind (p.next kind).toNat bytes) where
  sound := h.sound.fill hwhole
  counts other := by
    rw [Project.fill, Tables.count_set]
    exact Nat.le_trans (Project.count_le_add _ other) (h.counts other)
  completes := by
    rw [Project.next, UInt16.toNat_ofNat_of_lt' hroom]
    exact h.completes.claimed bytes
  entityTypes := h.entityTypes

end Enlarges

/-- A record is added with its bytes. -/
theorem Project.Sound.addWhole {p : Project} {kind : Kind} {bytes : Bytes} (h : p.Sound)
    (name : String) (hwhole : Whole p.tables.count kind bytes) :
    Enlarges p (p.add kind ⟨name, some bytes⟩) where
  sound := h.add fun _ heq => Option.some.inj heq ▸ hwhole
  counts := Project.count_le_add _
  completes := Tables.completes_add _ _ _ _
  entityTypes := rfl

/-- The record that was added last is the last one. -/
theorem Project.next_lt_add {p : Project} {kind : Kind} (record : Record)
    (hroom : p.tables.count kind < UInt16.size) :
    (p.next kind).toNat < (p.add kind record).tables.count kind := by
  rw [Project.next, UInt16.toNat_ofNat_of_lt' hroom, Project.add, Tables.count_add, if_pos rfl]
  exact Nat.lt_succ_self _

/-! ## Traversals -/

/-- Steps that each enlarge the project, one after the other. What is true of each result stays true
    while more is built. -/
theorem enlarges_mapM {α β : Type} {f : α → Step Project β} (out : α → β → Counts → Prop)
    {xs : List α} {ys : List β} {p q : Project} (hp : p.Sound)
    (hout : ∀ a b (count more : Counts), (∀ kind, count kind ≤ more kind) → out a b count →
      out a b more)
    (hstep : ∀ a ∈ xs, ∀ s b t, Enlarges p s → Yields (f a) s b t →
      Enlarges s t ∧ out a b t.tables.count)
    (h : Yields (xs.mapM f) p ys q) :
    Enlarges p q ∧ List.Forall₂ (fun a b => out a b q.tables.count) xs ys := by
  induction xs generalizing p ys with
  | nil =>
    simp only [List.mapM_nil, yields_pure] at h
    obtain ⟨rfl, rfl⟩ := h
    exact ⟨.refl hp, .nil⟩
  | cons a xs ih =>
    simp only [List.mapM_cons, yields_bind, yields_pure] at h
    obtain ⟨b, s, hb, bs, t, hbs, rfl, rfl⟩ := h
    obtain ⟨hps, hab⟩ := hstep a List.mem_cons_self p b s (.refl hp) hb
    obtain ⟨hst, hrest⟩ := ih hps.sound (fun x hx r c u hsr => hstep x (List.mem_cons_of_mem _ hx)
      r c u (hps.trans hsr)) hbs
    exact ⟨hps.trans hst, .cons (hout a b _ _ hst.counts hab) hrest⟩

theorem enlarges_forM {α : Type} {f : α → Step Project Unit} {xs : List α} {p q : Project}
    (hp : p.Sound) (hstep : ∀ a ∈ xs, ∀ s t, s.Sound → Yields (f a) s () t → Enlarges s t)
    (h : Yields (xs.forM f) p () q) : Enlarges p q :=
  yields_forM Project.Sound Enlarges (fun _ => .refl) (fun _ _ _ => .trans) (fun _ _ => Enlarges.sound)
    hstep hp h

end GameBundle
