import GameBundle.Build.Scripts
import GameBundle.Proofs.Build.Progress
import GameBundle.Proofs.Record.Contents

set_option autoImplicit false

/-! # The bytes of an instruction

An instruction is its number, then the numbers of its operands in slots of their own width and byte
order, then zero bytes up to its length. The slots are written front to back and there is always
room for them, so an instruction is refused for one of three reasons only: it is not in the table,
the number of an operand is not found, or a number is too large for its slot. -/

namespace GameBundle

variable {input : Input} {compile : String → Step MapState UInt16} {s t : MapState} {f : Failure}

/-! ## Slots -/

/-- The slots of all instructions have a width that numbers can have, and only colours are stored
    for the screen. -/
def Operand.Plain (o : Operand) : Prop :=
  (o.width = 1 ∨ o.width = 2 ∨ o.width = 4) ∧ (o.kind ≠ .color → o.order = .data)

instance (o : Operand) : Decidable o.Plain := inferInstanceAs (Decidable (_ ∧ _))

theorem Opcode.plain {name : String} {number : UInt8} {opcode : Opcode}
    (h : Opcode.find? name = some (number, opcode)) : ∀ o ∈ opcode.operands, o.Plain := by
  have hall : ∀ opcode ∈ Opcode.all, ∀ o ∈ opcode.operands, o.Plain := by decide +kernel
  exact hall opcode (Opcode.mem_all_of_find? h)

/-- The slot of an operand with the number that goes into it. -/
def Action.slot (a : Action) (operand : Operand) (value : Nat) : Field :=
  .number value operand.width s!"{a.name} \"{operand.property}\"" operand.order

/-- The bytes of some slots, one behind the other. -/
def Action.slotBytes (a : Action) (operands : List Operand) (values : List Nat) : List UInt8 :=
  contentsOf (List.zipWith a.slot operands values)

/-- The number is not too large for the slot. -/
def Operand.Admits (operand : Operand) (value : Nat) : Prop := value ≤ maxForWidth operand.width

/-- A number that is too large is reported with the action and the argument it came from. -/
def Action.overflow (a : Action) (operand : Operand) (value : Nat) : Failure :=
  .error (.fieldOverflow s!"{a.name} \"{operand.property}\"" value operand.width)

/-- The width of some slots together. -/
def slotsWidth (operands : List Operand) : Nat := (operands.map Operand.width).sum

theorem slotsWidth_cons (operand : Operand) (rest : List Operand) :
    slotsWidth (operand :: rest) = operand.width + slotsWidth rest := by
  rw [slotsWidth, List.map_cons, List.sum_cons, slotsWidth]

theorem slotsWidth_append (xs ys : List Operand) :
    slotsWidth (xs ++ ys) = slotsWidth xs + slotsWidth ys := by
  rw [slotsWidth, List.map_append, List.sum_append, slotsWidth, slotsWidth]

namespace Action

variable {a : Action} {operand : Operand} {value : Nat}

theorem width_slot (hplain : operand.Plain) : (a.slot operand value).width = operand.width := by
  obtain ⟨hwidth, -⟩ := hplain
  unfold slot
  rcases hwidth with hwidth | hwidth | hwidth <;> rw [hwidth] <;> rfl

theorem number_image_slot (hplain : operand.Plain) (hfits : operand.Admits value) :
    operand.order.number (a.slot operand value).image = value := by
  obtain ⟨hwidth, -⟩ := hplain
  unfold Operand.Admits at hfits
  unfold slot
  rcases hwidth with hwidth | hwidth | hwidth <;> rw [hwidth] at hfits ⊢
  · exact (operand.order.number_singleton _).trans
      (UInt8.toNat_ofNat_of_lt' (Nat.lt_succ_of_le hfits))
  · rw [Field.image, Field.written, Field.width, ByteOrder.length_word, Nat.sub_self,
      List.replicate_zero, List.append_nil, ByteOrder.number_word]
    exact UInt16.toNat_ofNat_of_lt' (Nat.lt_succ_of_le hfits)
  · rw [Field.image, Field.written, Field.width, ByteOrder.length_long, Nat.sub_self,
      List.replicate_zero, List.append_nil, ByteOrder.number_long]
    · exact UInt32.toNat_ofNat_of_lt' (Nat.lt_succ_of_le hfits)
    all_goals simp

theorem slotBytes_cons (operand : Operand) (rest : List Operand) (value : Nat) (values : List Nat) :
    a.slotBytes (operand :: rest) (value :: values) =
      (a.slot operand value).image ++ a.slotBytes rest values := by
  rw [slotBytes, List.zipWith_cons_cons, contentsOf_cons, slotBytes]

theorem length_slotBytes {operands : List Operand} {values : List Nat}
    (hplain : ∀ o ∈ operands, o.Plain) (h : List.Forall₂ Operand.Admits operands values) :
    (a.slotBytes operands values).length = slotsWidth operands := by
  induction h with
  | nil => rfl
  | cons _ _ ih =>
    rw [List.forall_mem_cons] at hplain
    rw [slotBytes_cons, List.length_append, Field.length_image, width_slot hplain.1, ih hplain.2,
      slotsWidth_cons]

end Action

section Operands

variable {a : Action} {operand : Operand} {value : Nat} {w' : Writer} {done : List UInt8} {left : Nat}

/-- A number that fits its slot is written. -/
theorem write_slot (hplain : operand.Plain) (hword : done.length + operand.width < wordLimit)
    (hfits : operand.Admits value) :
    (Writer.holding done (operand.width + left)).write (a.slot operand value) =
      .ok (.holding (done ++ (a.slot operand value).image) left) := by
  have hwidth : (a.slot operand value).width = operand.width := Action.width_slot hplain
  rw [← hwidth] at hword ⊢
  exact Writer.write_holding hfits hword

/-- A number that does not fit is refused, and nothing of it is written. -/
theorem write_slot_of_not_admits {w : Writer} (hlarge : ¬operand.Admits value) :
    w.write (a.slot operand value) = .error (a.overflow operand value) :=
  if_pos (Nat.lt_of_not_le hlarge)

/-- The step that writes an operand. -/
def writeOperand (input : Input) (compile : String → Step MapState UInt16) (a : Action)
    (w : Writer) (operand : Operand) : Step MapState Writer := do
  let value ← resolve input compile a operand
  (w.write (a.slot operand value) : Except Failure Writer)

/-- An operand is written exactly if its number is found and fits. -/
theorem yields_writeOperand (hplain : operand.Plain)
    (hword : done.length + operand.width < wordLimit) :
    Yields (writeOperand input compile a (.holding done (operand.width + left)) operand) s w' t ↔
      ∃ value, Yields (resolve input compile a operand) s value t ∧
        operand.Admits value ∧ w' = .holding (done ++ (a.slot operand value).image) left := by
  simp only [writeOperand, yields_bind, yields_except]
  constructor
  · rintro ⟨value, u, hvalue, hok, rfl⟩
    have hfits : operand.Admits value := (Writer.write_spec hok).1
    exact ⟨value, hvalue, hfits, Except.ok.inj (hok.symm.trans (write_slot hplain hword hfits))⟩
  · rintro ⟨value, hvalue, hfits, rfl⟩
    exact ⟨value, t, hvalue, write_slot hplain hword hfits, rfl⟩

/-- Otherwise its number is not found or too large: there is always room for it. -/
theorem fails_writeOperand (hplain : operand.Plain)
    (hword : done.length + operand.width < wordLimit) :
    Fails (writeOperand input compile a (.holding done (operand.width + left)) operand) s f t ↔
      Fails (resolve input compile a operand) s f t ∨
        ∃ value, Yields (resolve input compile a operand) s value t ∧
          ¬operand.Admits value ∧ f = a.overflow operand value := by
  simp only [writeOperand, fails_bind, fails_except]
  constructor
  · rintro (hresolve | ⟨value, u, hvalue, herror, rfl⟩)
    · exact .inl hresolve
    · by_cases hfits : operand.Admits value
      · cases herror.symm.trans (write_slot hplain hword hfits)
      · have hsame := herror.symm.trans (write_slot_of_not_admits hfits)
        exact .inr ⟨value, hvalue, hfits, Except.error.inj hsame⟩
  · rintro (hresolve | ⟨value, hvalue, hlarge, rfl⟩)
    · exact .inl hresolve
    · exact .inr ⟨value, t, hvalue, write_slot_of_not_admits hlarge, rfl⟩

/-- Operands are written one after the other. The induction is on the operands, with what has been
    written already in `done`. -/
theorem yields_operands {operands : List Operand} (hplain : ∀ o ∈ operands, o.Plain)
    (hword : done.length + slotsWidth operands < wordLimit) :
    Yields (operands.foldlM (writeOperand input compile a) (.holding done (slotsWidth operands + left)))
        s w' t ↔
      ∃ values, Yields (operands.mapM (resolve input compile a)) s values t ∧
        List.Forall₂ Operand.Admits operands values ∧
        w' = .holding (done ++ a.slotBytes operands values) left := by
  induction operands generalizing s done with
  | nil =>
    simp only [List.foldlM_nil, List.mapM_nil, yields_pure]
    constructor
    · rintro ⟨rfl, rfl⟩
      exact ⟨[], ⟨rfl, rfl⟩, .nil, by simp [Action.slotBytes, contentsOf, slotsWidth]⟩
    · rintro ⟨_, ⟨rfl, rfl⟩, -, rfl⟩
      exact ⟨by simp [Action.slotBytes, contentsOf, slotsWidth], rfl⟩
  | cons operand rest ih =>
    rw [List.forall_mem_cons] at hplain
    rw [slotsWidth_cons] at hword
    have hrest : ∀ u value, Yields (rest.foldlM (writeOperand input compile a)
        (.holding (done ++ (a.slot operand value).image) (slotsWidth rest + left))) u w' t ↔
        ∃ values, Yields (rest.mapM (resolve input compile a)) u values t ∧
          List.Forall₂ Operand.Admits rest values ∧
          w' = .holding (done ++ (a.slot operand value).image ++ a.slotBytes rest values) left := by
      intro u value
      apply ih hplain.2
      rw [List.length_append, Field.length_image, Action.width_slot hplain.1]
      omega
    have hword' : done.length + operand.width < wordLimit := by omega
    simp only [List.foldlM_cons, List.mapM_cons, yields_bind, yields_pure, slotsWidth_cons,
      Nat.add_assoc, yields_writeOperand hplain.1 hword']
    constructor
    · rintro ⟨_, u, ⟨value, hvalue, hfits, rfl⟩, hsteps⟩
      obtain ⟨values, hvalues, hall, rfl⟩ := (hrest u value).1 hsteps
      refine ⟨value :: values, ⟨value, u, hvalue, values, t, hvalues, rfl, rfl⟩,
        .cons hfits hall, ?_⟩
      rw [Action.slotBytes_cons, List.append_assoc]
    · rintro ⟨_, ⟨value, u, hvalue, values, _, hvalues, rfl, rfl⟩, hall, rfl⟩
      obtain ⟨hfits, hall⟩ := List.forall₂_cons.1 hall
      refine ⟨_, u, ⟨value, hvalue, hfits, rfl⟩, (hrest u value).2 ⟨values, hvalues, hall, ?_⟩⟩
      rw [Action.slotBytes_cons, List.append_assoc]

/-- All operands up to one are resolved to numbers that fit, and this one is not resolved or its
    number is too large. -/
def OperandRefused (input : Input) (compile : String → Step MapState UInt16) (a : Action) (operands : List Operand) (s : MapState)
    (f : Failure) (t : MapState) : Prop :=
  ∃ earlier operand later values u, operands = earlier ++ operand :: later ∧
    Yields (earlier.mapM (resolve input compile a)) s values u ∧
    List.Forall₂ Operand.Admits earlier values ∧
    (Fails (resolve input compile a operand) u f t ∨
      ∃ value, Yields (resolve input compile a operand) u value t ∧
        ¬operand.Admits value ∧ f = a.overflow operand value)

/-- Operands are refused for nothing else. -/
theorem fails_operands {operands : List Operand} (hplain : ∀ o ∈ operands, o.Plain)
    (hword : done.length + slotsWidth operands < wordLimit) :
    Fails (operands.foldlM (writeOperand input compile a) (.holding done (slotsWidth operands + left)))
        s f t ↔
      OperandRefused input compile a operands s f t := by
  -- up to some operand the record is as `yields_operands` says
  have hat : ∀ {earlier operand later}, operands = earlier ++ operand :: later →
      (∀ o ∈ earlier, o.Plain) ∧ operand.Plain ∧
      done.length + slotsWidth earlier + operand.width < wordLimit ∧
      slotsWidth operands + left =
        slotsWidth earlier + (operand.width + (slotsWidth later + left)) := by
    rintro earlier operand later rfl
    rw [slotsWidth_append, slotsWidth_cons] at hword ⊢
    refine ⟨fun o ho => hplain o (List.mem_append_left _ ho),
      hplain operand (List.mem_append_right _ List.mem_cons_self), by omega, by omega⟩
  rw [fails_foldlM]
  constructor
  · rintro ⟨earlier, operand, later, w', u, hsplit, hearlier, hfails⟩
    obtain ⟨hplain', hoperand, hword', hwidth⟩ := hat hsplit
    rw [hwidth, yields_operands hplain' (by omega)] at hearlier
    obtain ⟨values, hvalues, hall, rfl⟩ := hearlier
    refine ⟨earlier, operand, later, values, u, hsplit, hvalues, hall, ?_⟩
    refine (fails_writeOperand hoperand ?_).1 hfails
    rw [List.length_append, Action.length_slotBytes hplain' hall]
    exact hword'
  · rintro ⟨earlier, operand, later, values, u, hsplit, hvalues, hall, hfails⟩
    obtain ⟨hplain', hoperand, hword', hwidth⟩ := hat hsplit
    refine ⟨earlier, operand, later, .holding (done ++ a.slotBytes earlier values)
      (operand.width + (slotsWidth later + left)), u, hsplit, ?_,
      (fails_writeOperand hoperand ?_).2 hfails⟩
    · rw [hwidth, yields_operands hplain' (by omega)]
      exact ⟨values, hvalues, hall, rfl⟩
    · rw [List.length_append, Action.length_slotBytes hplain' hall]
      exact hword'

end Operands

/-! ## Instructions -/

variable {a : Action} {number : UInt8} {opcode : Opcode} {values : List Nat} {bytes : Bytes}

/-- The bytes of an instruction: its number, its slots, and zero up to the end. -/
def Action.instruction (a : Action) (number : UInt8) (operands : List Operand)
    (values : List Nat) : Bytes :=
  (number :: (a.slotBytes operands values ++
    List.replicate (instructionLength - 1 - slotsWidth operands) 0)).toArray

/-- The slots of every instruction leave room for its number. -/
theorem Opcode.slotsWidth_lt (h : opcode ∈ Opcode.all) :
    slotsWidth opcode.operands < instructionLength := by
  have hall : ∀ opcode ∈ Opcode.all, slotsWidth opcode.operands < instructionLength := by
    decide +kernel
  exact hall opcode h

/-- The slots of an instruction are written behind its number. -/
theorem encodeAction_eq : encodeAction input compile a =
    (do
      let (number, opcode) ← orReject (Opcode.find? a.name) (.unknownAction a.name)
      let w ← opcode.operands.foldlM (writeOperand input compile a)
        (.holding [number] (instructionLength - 1))
      return w.buffer) := by
  have hword : ([] : List UInt8).length + 1 < wordLimit := by decide
  have hnumber : ∀ number, (Writer.new instructionLength).write (.byte number) =
      .ok (.holding [number] (instructionLength - 1)) := by
    intro number
    have hfits : (Field.byte number).Fits := trivial
    rw [Writer.new_eq_holding]
    exact @Writer.write_holding [] (instructionLength - 1) _ hfits hword
  simp only [encodeAction, hnumber]
  rfl

section Slots

variable (hfind : Opcode.find? a.name = some (number, opcode))
include hfind

theorem Opcode.room :
    slotsWidth opcode.operands + (instructionLength - 1 - slotsWidth opcode.operands) =
      instructionLength - 1 ∧ [number].length + slotsWidth opcode.operands < wordLimit := by
  have hlt := Opcode.slotsWidth_lt (Opcode.mem_all_of_find? hfind)
  have hword : instructionLength < wordLimit := by decide
  rw [List.length_singleton]
  omega

theorem yields_slots {w : Writer} :
    Yields (opcode.operands.foldlM (writeOperand input compile a)
        (.holding [number] (instructionLength - 1))) s w t ↔
      ∃ values, Yields (opcode.operands.mapM (resolve input compile a)) s values t ∧
        List.Forall₂ Operand.Admits opcode.operands values ∧
        w = .holding ([number] ++ a.slotBytes opcode.operands values)
          (instructionLength - 1 - slotsWidth opcode.operands) := by
  obtain ⟨hroom, hword⟩ := Opcode.room hfind
  rw [← hroom, yields_operands (Opcode.plain hfind) hword, Nat.add_sub_cancel_left]

theorem fails_slots :
    Fails (opcode.operands.foldlM (writeOperand input compile a)
        (.holding [number] (instructionLength - 1))) s f t ↔
      OperandRefused input compile a opcode.operands s f t := by
  obtain ⟨hroom, hword⟩ := Opcode.room hfind
  rw [← hroom, fails_operands (Opcode.plain hfind) hword]

end Slots

/-- **When an action has an instruction**, and which. -/
theorem yields_encodeAction :
    Yields (encodeAction input compile a) s bytes t ↔
      ∃ number opcode values, Opcode.find? a.name = some (number, opcode) ∧
        Yields (opcode.operands.mapM (resolve input compile a)) s values t ∧
        List.Forall₂ Operand.Admits opcode.operands values ∧
        bytes = a.instruction number opcode.operands values := by
  simp only [encodeAction_eq, yields_bind, yields_orReject, yields_pure]
  constructor
  · rintro ⟨⟨number, opcode⟩, _, ⟨hfind, rfl⟩, w, _, hslots, rfl, rfl⟩
    obtain ⟨values, hvalues, hall, rfl⟩ := (yields_slots hfind).1 hslots
    exact ⟨number, opcode, values, hfind, hvalues, hall, rfl⟩
  · rintro ⟨number, opcode, values, hfind, hvalues, hall, rfl⟩
    have hslots := (yields_slots hfind).2 ⟨values, hvalues, hall, rfl⟩
    exact ⟨(number, opcode), s, ⟨hfind, rfl⟩, _, t, hslots, rfl, rfl⟩

/-- **Why an action has no instruction.** -/
theorem fails_encodeAction :
    Fails (encodeAction input compile a) s f t ↔
      (Opcode.find? a.name = none ∧ f = .error (.unknownAction a.name) ∧ s = t) ∨
      ∃ number opcode, Opcode.find? a.name = some (number, opcode) ∧
        OperandRefused input compile a opcode.operands s f t := by
  simp only [encodeAction_eq, fails_bind, fails_orReject, yields_orReject, fails_pure, and_false,
    exists_false, or_false]
  constructor
  · rintro (hunknown | ⟨⟨number, opcode⟩, _, ⟨hfind, rfl⟩, hslots⟩)
    · exact .inl hunknown
    · exact .inr ⟨number, opcode, hfind, (fails_slots hfind).1 hslots⟩
  · rintro (hunknown | ⟨number, opcode, hfind, hrefused⟩)
    · exact .inl hunknown
    · exact .inr ⟨(number, opcode), s, ⟨hfind, rfl⟩, (fails_slots hfind).2 hrefused⟩

/-! ## Layout -/

theorem Opcode.slotOffset_eq (opcode : Opcode) (k : Nat) :
    opcode.slotOffset k = 1 + slotsWidth (opcode.operands.take k) := rfl

/-- Every slot of an instruction lies within its eight bytes. -/
theorem Opcode.slot_le (hfind : Opcode.find? a.name = some (number, opcode)) {k : Nat}
    {operand : Operand} (hk : opcode.operands[k]? = some operand) :
    opcode.slotOffset k + operand.width ≤ instructionLength := by
  have hlt := Opcode.slotsWidth_lt (Opcode.mem_all_of_find? hfind)
  have hwidth : slotsWidth opcode.operands = slotsWidth (opcode.operands.take k) +
      (operand.width + slotsWidth (opcode.operands.drop (k + 1))) := by
    obtain ⟨hlt, rfl⟩ := List.getElem?_eq_some_iff.1 hk
    rw [← slotsWidth_cons, ← List.drop_eq_getElem_cons hlt, ← slotsWidth_append,
      List.take_append_drop]
  rw [Opcode.slotOffset_eq]
  omega

/-- The number in the slot of an operand that starts at some place. -/
def Operand.numberIn? (operand : Operand) (bytes : Bytes) (start : Nat) : Option Nat :=
  (bytes.slice? start operand.width).map fun part => operand.order.number part.toList

/-- The bytes are those of an instruction with these numbers for its operands. -/
structure Opcode.LaidOut (opcode : Opcode) (number : UInt8) (values : List Nat) (bytes : Bytes) :
    Prop where
  size : bytes.size = instructionLength
  number : bytes[0]? = some number
  slots : ∀ k (operand : Operand), opcode.operands[k]? = some operand →
    ∃ value, values[k]? = some value ∧ operand.numberIn? bytes (opcode.slotOffset k) = some value
  rest : ∀ i, opcode.slotOffset opcode.operands.length ≤ i → i < instructionLength →
    bytes[i]? = some 0

/-- Each slot lies behind those of the earlier operands. -/
theorem hasAt_slotBytes {operands : List Operand} {start k : Nat} {operand : Operand}
    (hplain : ∀ o ∈ operands, o.Plain) (hall : List.Forall₂ Operand.Admits operands values)
    (hbytes : bytes.HasAt start (a.slotBytes operands values)) (hk : operands[k]? = some operand) :
    ∃ value, values[k]? = some value ∧ operand.Admits value ∧
      bytes.HasAt (start + slotsWidth (operands.take k)) (a.slot operand value).image := by
  induction hall generalizing start k with
  | nil => simp at hk
  | @cons first value rest values hfits _ ih =>
    rw [List.forall_mem_cons] at hplain
    rw [Action.slotBytes_cons] at hbytes
    cases k with
    | zero =>
      rw [List.getElem?_cons_zero, Option.some.injEq] at hk
      subst hk
      exact ⟨value, rfl, hfits, hbytes.left⟩
    | succ k =>
      have hrest := hbytes.right
      rw [Field.length_image, Action.width_slot hplain.1] at hrest
      obtain ⟨value', hvalue, hfits', hslot⟩ := ih hplain.2 hrest hk
      refine ⟨value', hvalue, hfits', ?_⟩
      rwa [Nat.add_assoc, ← slotsWidth_cons, ← List.take_succ_cons] at hslot

theorem Operand.numberIn?_of_hasAt {operand : Operand} {value start : Nat} (hplain : operand.Plain)
    (hfits : operand.Admits value) (hslot : bytes.HasAt start (a.slot operand value).image)
    (hend : start + operand.width ≤ bytes.size) : operand.numberIn? bytes start = some value := by
  have hlength : (a.slot operand value).image.length = operand.width := by
    rw [Field.length_image, Action.width_slot hplain]
  rw [Operand.numberIn?, ← hlength, hslot.slice? (by rwa [hlength]), Option.map_some,
    Action.number_image_slot hplain hfits]

section Layout

variable (hfind : Opcode.find? a.name = some (number, opcode))
  (hall : List.Forall₂ Operand.Admits opcode.operands values)
include hfind hall

theorem Action.size_instruction :
    (a.instruction number opcode.operands values).size = instructionLength := by
  have hlength := Action.length_slotBytes (a := a) (Opcode.plain hfind) hall
  have hlt := Opcode.slotsWidth_lt (Opcode.mem_all_of_find? hfind)
  simp only [instruction, List.size_toArray, List.length_cons, List.length_append, hlength,
    List.length_replicate]
  omega

theorem Action.hasAt_slot {k : Nat} {operand : Operand} (hk : opcode.operands[k]? = some operand) :
    ∃ value, values[k]? = some value ∧ operand.Admits value ∧
      (a.instruction number opcode.operands values).HasAt (opcode.slotOffset k)
        (a.slot operand value).image :=
  hasAt_slotBytes (Opcode.plain hfind) hall (Bytes.hasAt_of_toList [number] _ rfl) hk

/-- **Where the bytes of an instruction are.** -/
theorem Action.instruction_laidOut :
    opcode.LaidOut number values (a.instruction number opcode.operands values) := by
  have hlength := Action.length_slotBytes (a := a) (Opcode.plain hfind) hall
  have hsize := Action.size_instruction hfind hall
  have hrest : (a.instruction number opcode.operands values).HasAt
      (1 + slotsWidth opcode.operands)
      (List.replicate (instructionLength - 1 - slotsWidth opcode.operands) 0) := by
    rw [Nat.add_comm, ← hlength]
    exact Bytes.hasAt_of_toList (number :: a.slotBytes opcode.operands values) []
      (by rw [List.append_nil, hlength]; rfl)
  refine ⟨hsize, rfl, fun k operand hk => ?_, fun i hi hi' => ?_⟩
  · obtain ⟨value, hvalue, hfits, hslot⟩ := Action.hasAt_slot hfind hall hk
    have hplain := Opcode.plain hfind operand (List.mem_of_getElem? hk)
    have hend := Opcode.slot_le hfind hk
    rw [← hsize] at hend
    exact ⟨value, hvalue, Operand.numberIn?_of_hasAt hplain hfits hslot hend⟩
  · rw [Opcode.slotOffset_eq, List.take_length] at hi
    obtain ⟨j, rfl⟩ := Nat.exists_eq_add_of_le hi
    have hj : j < instructionLength - 1 - slotsWidth opcode.operands := by omega
    rw [hrest j (by rwa [List.length_replicate]), List.getElem?_replicate, if_pos hj]

end Layout

end GameBundle
