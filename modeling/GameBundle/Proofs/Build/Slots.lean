import GameBundle.Proofs.Build.Instructions
import GameBundle.Proofs.Build.Replay

set_option autoImplicit false

/-! # What the slots of an instruction hold

Each slot of an instruction holds the number that the argument of its operand has when the
instruction is finished, and still has at any later time. `Found` says for each kind of operand what
number that is. -/

namespace GameBundle

variable {input : Input} {s t u : MapState}

/-! ## Reading a slot -/

/-- The number in a slot of one, two or four bytes, low byte first. -/
def Bytes.slot? (bytes : Bytes) (offset : Nat) : Nat → Option Nat
  | 1 => (bytes[offset]?).map UInt8.toNat
  | 2 => (bytes.word? offset).map UInt16.toNat
  | 4 => (bytes.long? offset).map UInt32.toNat
  | _ => none

theorem Bytes.HasAt.slot? {bytes : Bytes} {offset value width : Nat} {context : String}
    (hwidth : width = 1 ∨ width = 2 ∨ width = 4)
    (h : bytes.HasAt offset (Field.number value width context .data).written)
    (hfits : (Field.number value width context .data).Fits) :
    bytes.slot? offset width = some value := by
  rcases hwidth with rfl | rfl | rfl
  · have hbyte : bytes[offset]? = some value.toUInt8 := h 0 (Nat.lt_succ_self 0)
    rw [Bytes.slot?, hbyte, Option.map_some,
      show value.toUInt8.toNat = value from UInt8.toNat_ofNat_of_lt' (Nat.lt_succ_of_le hfits)]
  · have hword : bytes.word? offset = some value.toUInt16 := Bytes.HasAt.word? h
    rw [Bytes.slot?, hword, Option.map_some,
      show value.toUInt16.toNat = value from UInt16.toNat_ofNat_of_lt' (Nat.lt_succ_of_le hfits)]
  · have hlong : bytes.long? offset = some value.toUInt32 := Bytes.HasAt.long? h
    rw [Bytes.slot?, hlong, Option.map_some,
      show value.toUInt32.toNat = value from UInt32.toNat_ofNat_of_lt' (Nat.lt_succ_of_le hfits)]

/-- A slot depends on its own bytes only. -/
theorem Bytes.slot?_congr {bytes other : Bytes} {offset offset' width value : Nat}
    (hsame : ∀ i < width, other[offset' + i]? = bytes[offset + i]?)
    (h : bytes.slot? offset width = some value) : other.slot? offset' width = some value := by
  unfold Bytes.slot? at h ⊢
  split at h
  · rw [show other[offset']? = bytes[offset]? from hsame 0 (by omega)]
    exact h
  · have hword : other.word? offset' = bytes.word? offset :=
      Bytes.word?_congr (hsame 0 (by omega)) (hsame 1 (by omega))
    rw [hword]
    exact h
  · have hlong : other.long? offset' = bytes.long? offset := by
      simp only [Bytes.long?, show other[offset']? = bytes[offset]? from hsame 0 (by omega),
        hsame 1 (by omega), hsame 2 (by omega), hsame 3 (by omega)]
    rw [hlong]
    exact h
  · cases h

/-! ## Operands -/

/-- The number that the argument of an operand stands for. -/
def Found (a : Action) (operand : Operand) (value : Nat) (s : MapState) : Prop :=
  match operand.kind with
  | .entity => ∃ name number, a.nonEmptyText operand.property = .ok name ∧
      s.map.entityNumber name a.name = .ok number ∧ value = number.toNat
  | .geometry => ∃ name number, a.nonEmptyText operand.property = .ok name ∧
      s.map.geometryNumber name a.name = .ok number ∧ value = number.toNat
  | .map => ∃ name index, a.nonEmptyText operand.property = .ok name ∧
      s.project.maps.find? name = some index ∧ value = index.toNat
  | .entityType => ∃ name type, a.nonEmptyText operand.property = .ok name ∧
      s.project.entityTypes.find? name = some type ∧ value = type.index.toNat
  | .script => ∃ name number, a.nonEmptyText operand.property = .ok name ∧
      s.map.scriptNumber? name = some number ∧ value = number.toNat
  | .text pool => ∃ text index, a.text operand.property = .ok text ∧
      TextNumber pool text index s ∧ value = index.toNat
  | .dialog => ∃ name index, a.text operand.property = .ok name ∧
      s.project.dialogs.find? (dialogKey s.map.name name) = some index ∧ value = index.toNat
  | .serialDialog => ∃ name index, a.text operand.property = .ok name ∧
      s.project.serialDialogs.find? name = some index ∧ value = index.toNat
  | _ => True

theorem Found.mono {a : Action} {operand : Operand} {value : Nat} (h : Found a operand value s)
    (hst : Later s t) : Found a operand value t := by
  unfold Found at h ⊢
  split at h
  · obtain ⟨name, number, hname, hnumber, rfl⟩ := h
    refine ⟨name, number, hname, ?_, rfl⟩
    rw [hst.map]
    exact hnumber
  · obtain ⟨name, number, hname, hnumber, rfl⟩ := h
    refine ⟨name, number, hname, ?_, rfl⟩
    rw [hst.map]
    exact hnumber
  · rw [hst.project]
    exact h
  · rw [hst.project]
    exact h
  · obtain ⟨name, number, hname, hnumber, rfl⟩ := h
    exact ⟨name, number, hname, hst.numbers _ _ hnumber, rfl⟩
  · obtain ⟨text, index, htext, hindex, rfl⟩ := h
    exact ⟨text, index, htext, hindex.mono hst, rfl⟩
  · obtain ⟨name, index, hname, hindex, rfl⟩ := h
    exact ⟨name, index, hname, hst.name ▸ hst.dialogs _ _ hindex, rfl⟩
  · obtain ⟨name, index, hname, hindex, rfl⟩ := h
    exact ⟨name, index, hname, hst.serialDialogs _ _ hindex, rfl⟩
  · trivial

/-- **What is stored for an operand is what its argument stands for.** -/
theorem resolve_found {a : Action} {operand : Operand} {value : Nat}
    (h : Yields (resolve input (compileScript input) a operand) s value t) :
    Found a operand value t := by
  unfold resolve at h
  unfold Found
  cases hkind : operand.kind with
  | entity | geometry =>
    simp only [hkind, yields_bind, yields_get, yields_except, liftM_eq_ok, yields_pure] at h
    obtain ⟨name, _, ⟨hname, rfl⟩, _, _, ⟨rfl, rfl⟩, number, _, ⟨hnumber, rfl⟩, rfl, rfl⟩ := h
    exact ⟨name, number, hname, hnumber, rfl⟩
  | map =>
    simp only [hkind, yields_bind, yields_get, yields_except, liftM_eq_ok, yields_pure] at h
    obtain ⟨name, _, ⟨hname, rfl⟩, _, _, ⟨rfl, rfl⟩, number, _, ⟨hnumber, rfl⟩, rfl, rfl⟩ := h
    refine ⟨name, number, hname, ?_, rfl⟩
    unfold numberOf at hnumber
    split at hnumber
    · next index hindex =>
      cases hnumber
      exact hindex
    · cases hnumber
  | entityType =>
    simp only [hkind, yields_bind, yields_get, yields_except, liftM_eq_ok] at h
    obtain ⟨name, _, ⟨hname, rfl⟩, _, _, ⟨rfl, rfl⟩, h⟩ := h
    split at h
    · next type htype =>
      obtain ⟨rfl, rfl⟩ := yields_pure.1 h
      exact ⟨name, type, hname, htype, rfl⟩
    · simp at h
  | script =>
    simp only [hkind, yields_bind, yields_except, liftM_eq_ok, yields_pure] at h
    obtain ⟨name, _, ⟨hname, rfl⟩, number, _, hnumber, rfl, rfl⟩ := h
    exact ⟨name, number, hname, compileScript_finds hnumber, rfl⟩
  | text pool =>
    simp only [hkind, yields_bind, yields_except, liftM_eq_ok, yields_pure] at h
    obtain ⟨text, _, ⟨htext, rfl⟩, index, _, hindex, rfl, rfl⟩ := h
    exact ⟨text, index, htext, (internOnMap_writes input hindex).1, rfl⟩
  | dialog =>
    simp only [hkind, yields_bind, yields_except, liftM_eq_ok, yields_pure] at h
    obtain ⟨name, _, ⟨hname, rfl⟩, index, _, hindex, rfl, rfl⟩ := h
    have hlater := ((buildDialog_replays compileScript_replays _ _).moves hindex).follows.later
    refine ⟨name, index, hname, ?_, rfl⟩
    rw [hlater.name]
    exact buildDialog_finds compileScript_replays hindex
  | serialDialog =>
    simp only [hkind, yields_bind, yields_except, liftM_eq_ok, yields_pure] at h
    obtain ⟨name, _, ⟨hname, rfl⟩, index, _, hindex, rfl, rfl⟩ := h
    exact ⟨name, index, hname, buildSerialDialog_finds compileScript_replays hindex, rfl⟩
  | key | turn | color | number | byte | twoBytes | bool | unsupported => trivial

/-! ## Instructions -/

/-- An instruction lies at `start`, with what its arguments stand for in its slots. -/
def Holds (a : Action) (bytes : Bytes) (start : Nat) (s : MapState) : Prop :=
  ∃ number opcode, Opcode.find? a.name = some (number, opcode) ∧ bytes[start]? = some number ∧
    ∀ k operand, opcode.operands[k]? = some operand →
      ∃ value, Found a operand value s ∧ (operand.order = .data →
        bytes.slot? (start + opcode.slotOffset k) operand.width = some value)

theorem Holds.mono {a : Action} {bytes : Bytes} {start : Nat} (h : Holds a bytes start s)
    (hst : Later s t) : Holds a bytes start t := by
  obtain ⟨number, opcode, hopcode, hnumber, hslots⟩ := h
  refine ⟨number, opcode, hopcode, hnumber, fun k operand hk => ?_⟩
  obtain ⟨value, hfound, hvalue⟩ := hslots k operand hk
  exact ⟨value, hfound.mono hst, hvalue⟩

/-- The slots of an instruction that lies in a record. -/
theorem Bytes.slot?_within {record part : Bytes} {start offset width value : Nat}
    (h : part.slot? offset width = some value) (hpart : record.HasAt start part.toList)
    (hfit : offset + width ≤ part.size) : record.slot? (start + offset) width = some value := by
  refine Bytes.slot?_congr (fun i hi => ?_) h
  rw [Nat.add_assoc, hpart (offset + i) (by rw [Array.length_toList]; omega), Array.getElem?_toList]

theorem encodeAction_holds {a : Action} {bytes : Bytes}
    (h : Yields (encodeAction input (compileScript input) a) s bytes t) :
    bytes.size = 8 ∧ Holds a bytes 0 t := by
  obtain ⟨number, opcode, values, hopcode, hvalues, hall, rfl⟩ := yields_encodeAction.1 h
  have hfound : List.Forall₂ (fun operand value => Found a operand value t) opcode.operands
      values := by
    refine (yields_mapM (fun _ => True) Later (fun operand value s => Found a operand value s)
      (fun s _ => .refl s) (fun _ _ _ => .trans) (fun _ _ _ => trivial)
      (fun _ _ _ _ hlater h => h.mono hlater) ?_ trivial hvalues).2
    intro operand _ s value t _ h
    exact ⟨((resolve_replays compileScript_replays a operand).moves h).follows.later,
      resolve_found h⟩
  have hlaid := Action.instruction_laidOut hopcode hall
  refine ⟨hlaid.size, number, opcode, hopcode, hlaid.number, fun k operand hk => ?_⟩
  obtain ⟨value, hvalue, hfits, hslot⟩ := Action.hasAt_slot hopcode hall hk
  obtain ⟨value', hvalue', hvalueFound⟩ := forall₂_getElem? hfound hk
  obtain rfl : value = value' := Option.some.inj (hvalue.symm.trans hvalue')
  refine ⟨value, hvalueFound, fun hdata => ?_⟩
  obtain ⟨hwidth, -⟩ := Opcode.plain hopcode operand (List.mem_of_getElem? hk)
  rw [Action.slot, hdata] at hslot
  rw [Nat.zero_add]
  exact hslot.left.slot? hwidth hfits

/-! ## Scripts -/

/-- The instruction of a record that lies in a longer one. -/
theorem Holds.within {a : Action} {record part : Bytes} {start : Nat} (h : Holds a part 0 s)
    (hsize : part.size = instructionLength) (hpart : record.HasAt start part.toList) :
    Holds a record start s := by
  obtain ⟨number, opcode, hopcode, hnumber, hslots⟩ := h
  refine ⟨number, opcode, hopcode, ?_, fun k operand hk => ?_⟩
  · have hfirst := hpart 0 (by rw [Array.length_toList, hsize]; decide)
    rw [Nat.add_zero, Array.getElem?_toList] at hfirst
    rw [hfirst, hnumber]
  · obtain ⟨value, hfound, hslot⟩ := hslots k operand hk
    refine ⟨value, hfound, fun hdata => ?_⟩
    have hat := hslot hdata
    rw [Nat.zero_add] at hat
    exact Bytes.slot?_within hat hpart (hsize ▸ Opcode.slot_le hopcode hk)

/-- **A script holds its instructions behind its header.** -/
theorem composeScript_holds {name : String} {actions : Script} {bytes : Bytes}
    (h : Yields (composeScript input (compileScript input) name actions) s bytes t) :
    bytes.size = 36 + 8 * actions.length ∧
      bytes.long? 32 = some (UInt32.ofNat actions.length) ∧
      ∀ j a, actions[j]? = some a → Holds a bytes (36 + 8 * j) t := by
  simp only [composeScript, yields_bind, yields_except, yields_pure] at h
  obtain ⟨header, _, ⟨hheader, rfl⟩, instructions, t, hinstructions, rfl, rfl⟩ := h
  have hall : List.Forall₂ (fun a (bytes : Bytes) => bytes.size = 8 ∧ Holds a bytes 0 t) actions
      instructions := by
    refine (yields_mapM (fun _ => True) Later (fun a (bytes : Bytes) s => bytes.size = 8 ∧
      Holds a bytes 0 s) (fun s _ => .refl s) (fun _ _ _ => .trans) (fun _ _ _ => trivial)
      (fun _ _ _ _ hlater h => ⟨h.1, h.2.mono hlater⟩) ?_ trivial hinstructions).2
    intro a _ s bytes t _ h
    exact ⟨((encodeAction_replays compileScript_replays a).moves h).follows.later,
      encodeAction_holds h⟩
  have hsize : header.size = 36 := Record.size_of_encode hheader
  have hsizes : instructions.map Array.size = actions.map fun _ => 8 :=
    map_eq_of_forall₂ (hall.imp fun _ _ h => h.1)
  refine ⟨?_, ?_, fun j a hj => ?_⟩
  · rw [Bytes.size_concat, hsizes, hsize, List.map_const', List.sum_replicate_nat, Nat.mul_comm]
  · have hfields := (Record.hasFields_of_encode hheader).within
      (Bytes.hasAt_concat_header header instructions)
    exact Bytes.HasAt.long? hfields.2.2.1
  · obtain ⟨part, hpart, hlength, hholds⟩ := forall₂_getElem? hall hj
    have hlt := (List.getElem?_eq_some_iff.1 hj).1
    have hat := Bytes.hasAt_concat header hpart
    rw [hsize, List.map_take, hsizes, ← List.map_take, List.map_const', List.sum_replicate_nat,
      List.length_take, Nat.min_eq_left (Nat.le_of_lt hlt), Nat.mul_comm] at hat
    exact hholds.within hlength hat

/-! ## Scripts that are filled -/

/-- The bytes of a script on the map: it is settled what they are. -/
def ScriptOf (input : Input) (s : MapState) (name : String) (bytes : Bytes) : Prop :=
  ∃ actions, HasActions input name actions ∧
    Settled (composeScript input (compileScript input) name actions) bytes s

theorem ScriptOf.mono {name : String} {bytes : Bytes} (h : ScriptOf input s name bytes)
    (hst : Later s t) : ScriptOf input t name bytes := by
  obtain ⟨actions, hactions, hsettled⟩ := h
  exact ⟨actions, hactions, hsettled.mono hst⟩

/-- Scripts behind the first `first` ones have their bytes from a compilation on this map. -/
def CompiledFrom (input : Input) (first : Nat) (s : MapState) : Prop :=
  ∀ i name bytes, first ≤ i →
    (s.project.tables.records .scripts)[i]? = some ⟨name, some bytes⟩ → ScriptOf input s name bytes

theorem compiledFrom_count (s : MapState) :
    CompiledFrom input (s.project.tables.count .scripts) s := by
  intro i name bytes hi hrecord
  exact absurd (Array.getElem?_eq_some_iff.1 hrecord).1 (Nat.not_lt.2 hi)

theorem CompiledFrom.writes {first : Nat} (h : CompiledFrom input first s)
    (hwrites : Writes input s t) : CompiledFrom input first t := by
  intro i name bytes hi hrecord
  have hlater := hwrites.later
  suffices hsame : (s.project.tables.records .scripts)[i]? = some ⟨name, some bytes⟩ ∨
      ScriptOf input s name bytes from
    hsame.elim (fun hold => (h i name bytes hi hold).mono hlater) fun hnew => hnew.mono hlater
  cases hwrites with
  | text pool text value made new within room =>
    left
    rwa [Project.add, Tables.records_add_of_ne _ (by cases pool <;> decide)] at hrecord
  | claim other actions source new room =>
    left
    rw [Project.add, Tables.getElem?_records_add] at hrecord
    split at hrecord
    · cases hrecord
    · exact hrecord
  | list other global number new next claimed => exact Or.inl hrecord
  | script index other actions filled source claimed settled =>
    rw [Project.fill, Tables.getElem?_records_set] at hrecord
    split at hrecord
    · next heq =>
      subst heq
      rw [claimed] at hrecord
      cases hrecord
      exact Or.inr ⟨actions, source, settled⟩
    · exact Or.inl hrecord
  | dialog other screens added source new settled room =>
    left
    rwa [Project.add, Tables.records_add_of_ne _ (by decide)] at hrecord
  | serialDialog other dialog added source within new settled room =>
    left
    rwa [Project.add, Tables.records_add_of_ne _ (by decide)] at hrecord
  | wire global number offset other script old new own slot record listed patched =>
    left
    rwa [Project.fill, Tables.records_set_of_ne (by decide)] at hrecord

/-- **Every script that a compilation fills has its instructions.** -/
theorem Follows.compiledFrom {first : Nat} (h : Follows input s t)
    (hs : CompiledFrom input first s) : CompiledFrom input first t :=
  h.keeps (fun _ _ hwrites hs => hs.writes hwrites) hs

end GameBundle
