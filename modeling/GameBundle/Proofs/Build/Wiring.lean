import GameBundle.Proofs.Build.Compiling
import GameBundle.Proofs.Build.Placement

set_option autoImplicit false

/-! # The scripts of entities

When the scripts of the map itself are compiled, those of its entities follow, and each number is
written over the zero in the record of its entity. One entity leaves the records of all others
alone, so in the end each has the numbers of its own scripts. -/

namespace GameBundle

variable {input : Input} {first : Nat} {s t u : MapState}

/-! ## Wired records -/

/-- The word at `offset` is the number of a script, or zero if none is named. -/
def ScriptAt (means : Meaning) (bytes : Bytes) (offset : Nat) : Option String → Prop
  | none => bytes.word? offset = some 0
  | some script => Stored means bytes offset script

theorem ScriptAt.mono {m n : Meaning} {bytes : Bytes} {offset : Nat} {script : Option String}
    (h : ScriptAt m bytes offset script) (hkeeps : Keeps m n) : ScriptAt n bytes offset script := by
  cases script with
  | none => exact h
  | some script => exact Stored.mono h hkeeps

theorem ScriptAt.congr {means : Meaning} {bytes bytes' : Bytes} {offset : Nat}
    {script : Option String} (h : ScriptAt means bytes offset script)
    (hword : bytes'.word? offset = bytes.word? offset) : ScriptAt means bytes' offset script := by
  cases script with
  | none => exact hword.trans h
  | some script =>
    obtain ⟨number, hnumber, hfind⟩ := h
    exact ⟨number, hword.trans hnumber, hfind⟩

/-- The record of an entity with the numbers of its scripts. -/
def Wired (means : Meaning) (e : Entity) (record : Record) : Prop :=
  ∃ bytes, record.bytes = some bytes ∧
    ScriptAt means bytes Entity.interactOffset (e.script? "on_interact") ∧
    ScriptAt means bytes Entity.tickOffset (e.script? "on_tick")

theorem Wired.mono {m n : Meaning} {e : Entity} {record : Record} (h : Wired m e record)
    (hkeeps : Keeps m n) : Wired n e record := by
  obtain ⟨bytes, hbytes, hinteract, htick⟩ := h
  exact ⟨bytes, hbytes, hinteract.mono hkeeps, htick.mono hkeeps⟩

/-! ## Wiring -/

/-- The step that wires one of the two slots. -/
def wireSlot (input : Input) (global : UInt16) (script : Option String) (offset : Nat) :
    Step MapState Unit := do
  match script with
  | none => return ()
  | some script =>
    let number ← compileScript input script
    onProject (onTables (Tables.update .entities global (·.patchWord offset number)))

theorem yields_wireEntity {global : UInt16} {e : Entity} {v : Unit} :
    Yields (wireEntity input global e) s v t ↔
      ∃ u, Yields (wireSlot input global (e.script? "on_interact") Entity.interactOffset) s () u ∧
        Yields (wireSlot input global (e.script? "on_tick") Entity.tickOffset) u () t := by
  rw [wireEntity, yields_forM_cons]
  simp only [yields_forM_cons, yields_forM_nil]
  constructor
  · rintro ⟨u, hinteract, _, htick, rfl⟩
    exact ⟨u, hinteract, htick⟩
  · rintro ⟨u, hinteract, htick⟩
    exact ⟨u, hinteract, _, htick, rfl⟩

/-- One slot gets its number; the rest of the record and all other records stay as they are. -/
theorem wireSlot_spec {global : UInt16} {script : Option String} {offset : Nat} {name : String}
    {bytes : Bytes} (hs : Numbered first s)
    (hrecord : (s.project.tables.records .entities)[global.toNat]? = some ⟨name, some bytes⟩)
    (hblank : bytes.word? offset = some 0)
    (h : Yields (wireSlot input global script offset) s () t) :
    Advances input first [.entities] s t ∧
      (∀ i, i ≠ global.toNat → (t.project.tables.records .entities)[i]? =
        (s.project.tables.records .entities)[i]?) ∧
      ∃ bytes', (t.project.tables.records .entities)[global.toNat]? = some ⟨name, some bytes'⟩ ∧
        ScriptAt t.map.meaning bytes' offset script ∧
        ∀ other, other + 2 ≤ offset ∨ offset + 2 ≤ other →
          bytes'.word? other = bytes.word? other := by
  cases script with
  | none =>
    obtain ⟨-, rfl⟩ := yields_pure.1 h
    exact ⟨.refl hs, fun _ _ => rfl, bytes, hrecord, hblank, fun _ _ => rfl⟩
  | some script =>
    simp only [wireSlot, yields_bind, yields_onProject, yields_onTables, Tables.yields_update] at h
    obtain ⟨number, u, hnumber, _, ⟨_, ⟨name', old, new, hold, hnew, rfl⟩, rfl⟩, rfl⟩ := h
    obtain ⟨hsu, hfind⟩ := compileScript_spec script s number u hs hnumber
    have hentities := hsu.frame .entities (by decide) (by simp)
    rw [hentities, hrecord] at hold
    cases hold
    refine ⟨hsu.weaken.trans (.of_project hsu.numbered rfl (Tables.records_set_of_ne (by decide))
      (.of_eq (Tables.records_set_of_ne (by decide)))
      (.of_eq (Tables.records_set_of_ne (by decide)))
      fun kind _ hpatched => Tables.records_set_of_ne fun heq => hpatched (by rw [heq]; simp)),
      fun i hi => ?_, new, ?_, ⟨number, word?_patchWord hnew, hfind⟩,
      fun other hother => word?_patchWord_of_disjoint hnew hother⟩
    · rw [← hentities]
      exact Tables.getElem?_records_set.trans (if_neg hi.symm)
    · rw [← hentities] at hrecord
      exact Tables.getElem?_records_set.trans ((if_pos rfl).trans (by rw [hrecord]; rfl))

theorem wireEntity_spec {global : UInt16} {e : Entity} {record : Record} (hs : Numbered first s)
    (hrecord : (s.project.tables.records .entities)[global.toNat]? = some record)
    (hunwired : Unwired record) (h : Yields (wireEntity input global e) s () t) :
    Advances input first [.entities] s t ∧
      (∀ i, i ≠ global.toNat → (t.project.tables.records .entities)[i]? =
        (s.project.tables.records .entities)[i]?) ∧
      ∃ record', (t.project.tables.records .entities)[global.toNat]? = some record' ∧
        Wired t.map.meaning e record' := by
  obtain ⟨name, stored⟩ := record
  obtain ⟨bytes, rfl, hinteract, htick⟩ := hunwired
  obtain ⟨u, hfirst, hsecond⟩ := yields_wireEntity.1 h
  obtain ⟨hsu, hothers, bytes', hrecord', hinteract', hsame⟩ :=
    wireSlot_spec hs hrecord hinteract hfirst
  have htick' : bytes'.word? Entity.tickOffset = some 0 := (hsame _ (by decide)).trans htick
  obtain ⟨hut, hothers', bytes'', hrecord'', htick'', hsame'⟩ :=
    wireSlot_spec hsu.numbered hrecord' htick' hsecond
  -- the second number is written next to the first and leaves it as it is
  refine ⟨hsu.trans hut, fun i hi => (hothers' i hi).trans (hothers i hi), _, hrecord'', bytes'',
    rfl, ?_, htick''⟩
  exact (hinteract'.mono hut.keeps).congr (hsame' _ (by decide))

/-- **Every entity gets the numbers of its own scripts.** The induction is on the entities that are
    still to be wired; their records are different, so wiring one leaves the others as they are. -/
theorem wireEntities_spec {placed : List (UInt16 × Entity)} (hs : Numbered first s)
    (hdifferent : (placed.map Prod.fst).Nodup)
    (hunwired : ∀ p ∈ placed, ∃ record,
      (s.project.tables.records .entities)[p.1.toNat]? = some record ∧ Unwired record)
    (h : Yields (placed.forM fun p => wireEntity input p.1 p.2) s () t) :
    Advances input first [.entities] s t ∧
      (∀ i, (∀ p ∈ placed, p.1.toNat ≠ i) → (t.project.tables.records .entities)[i]? =
        (s.project.tables.records .entities)[i]?) ∧
      ∀ p ∈ placed, ∃ record, (t.project.tables.records .entities)[p.1.toNat]? = some record ∧
        Wired t.map.meaning p.2 record := by
  induction placed generalizing s with
  | nil =>
    obtain rfl := yields_forM_nil.1 h
    exact ⟨.refl hs, fun _ _ => rfl, by simp⟩
  | cons p rest ih =>
    obtain ⟨u, hfirst, hrest⟩ := yields_forM_cons.1 h
    rw [List.map_cons, List.nodup_cons] at hdifferent
    have hother : ∀ q ∈ rest, q.1.toNat ≠ p.1.toNat := by
      intro q hq heq
      exact hdifferent.1 (UInt16.toNat_inj.1 heq ▸ List.mem_map_of_mem hq)
    obtain ⟨record, hrecord, hblank⟩ := hunwired p List.mem_cons_self
    obtain ⟨hsu, hsame, record', hrecord', hwired⟩ := wireEntity_spec hs hrecord hblank hfirst
    obtain ⟨hut, hsame', hall⟩ := ih hsu.numbered hdifferent.2 (fun q hq => by
      rw [hsame _ (hother q hq)]
      exact hunwired q (List.mem_cons_of_mem _ hq)) hrest
    refine ⟨hsu.trans hut, fun i hi => ?_, fun q hq => ?_⟩
    · rw [hsame' i fun q hq => hi q (List.mem_cons_of_mem _ hq),
        hsame i (hi p List.mem_cons_self).symm]
    · rcases List.mem_cons.1 hq with rfl | hq
      · exact ⟨record', (hsame' _ hother).trans hrecord', hwired.mono hut.keeps⟩
      · exact hall q hq

end GameBundle
