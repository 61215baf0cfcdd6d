import GameBundle.Proofs.Record.Reading
import GameBundle.Proofs.Steps
import GameBundle.Record.Writer

set_option autoImplicit false

/-! # What an encoded record holds

A record that was encoded from a list of fields has each of them at the place that the widths of the
fields before it give. `Bytes.HasFields` says so, and `Record.hasFields_of_encode` is all that later
modules need to know about the writer. -/

namespace GameBundle

/-! ## Fields -/

namespace Field

/-- How far a field moves the cursor. -/
def width : Field → Nat
  | byte _ => 1
  | word _ _ => 2
  | long _ _ => 4
  | chars _ width => width
  | gap width => width
  | number _ 1 _ _ => 1
  | number _ 2 _ _ => 2
  | number _ _ _ _ => 4

/-- The bytes a field writes at the cursor. -/
def written : Field → List UInt8
  | byte value => [value]
  | word value order => order.word value
  | long value order => order.long value
  | chars text width => text.toUTF8.toList.take width
  | gap _ => []
  | number value 1 _ _ => [value.toUInt8]
  | number value 2 _ order => order.word value.toUInt16
  | number value _ _ order => order.long value.toUInt32

/-- A number is as large as its field allows. -/
def Fits : Field → Prop
  | number value width _ _ => value ≤ maxForWidth width
  | _ => True

theorem length_written_le (field : Field) : field.written.length ≤ field.width := by
  cases field with
  | chars text width => exact List.length_take_le _ _
  | number value width context order =>
    unfold written Field.width
    split <;> simp_all
  | _ => simp [written, Field.width]

end Field

/-- How far some fields move the cursor. -/
def widthOf (fields : List Field) : Nat := (fields.map Field.width).sum

@[simp] theorem widthOf_nil : widthOf [] = 0 := rfl

@[simp] theorem widthOf_cons (field : Field) (rest : List Field) :
    widthOf (field :: rest) = field.width + widthOf rest := by simp [widthOf]

@[simp] theorem widthOf_append (xs ys : List Field) :
    widthOf (xs ++ ys) = widthOf xs + widthOf ys := by
  simp [widthOf]

theorem widthOf_map {α : Type} {f : α → Field} (width : Nat) (hf : ∀ a, (f a).width = width)
    (items : List α) : widthOf (items.map f) = width * items.length := by
  induction items with
  | nil => rfl
  | cons a rest ih =>
    rw [List.map_cons, widthOf_cons, ih, hf, List.length_cons, Nat.mul_succ, Nat.add_comm]

theorem widthOf_flatMap {α : Type} {f : α → List Field} {items : List α} (width : Nat)
    (hf : ∀ a ∈ items, widthOf (f a) = width) :
    widthOf (items.flatMap f) = width * items.length := by
  induction items with
  | nil => rfl
  | cons a rest ih =>
    rw [List.forall_mem_cons] at hf
    rw [List.flatMap_cons, widthOf_append, ih hf.2, hf.1, List.length_cons, Nat.mul_succ,
      Nat.add_comm]

/-! ## Fields of a record -/

/-- The fields were written one after the other from `start` on. -/
def Bytes.HasFields (bytes : Bytes) : Nat → List Field → Prop
  | _, [] => True
  | start, field :: rest =>
    bytes.HasAt start field.written ∧ field.Fits ∧ bytes.HasFields (start + field.width) rest

namespace Bytes

variable {bytes : Bytes} {start : Nat}

theorem hasFields_append {xs ys : List Field} :
    bytes.HasFields start (xs ++ ys) ↔
      bytes.HasFields start xs ∧ bytes.HasFields (start + widthOf xs) ys := by
  induction xs generalizing start with
  | nil => simp [HasFields]
  | cons field rest ih =>
    simp only [List.cons_append, HasFields, ih, widthOf_cons, and_assoc, Nat.add_assoc]

theorem HasFields.left {xs ys : List Field} (h : bytes.HasFields start (xs ++ ys)) :
    bytes.HasFields start xs :=
  (hasFields_append.1 h).1

theorem HasFields.right {xs ys : List Field} (h : bytes.HasFields start (xs ++ ys)) :
    bytes.HasFields (start + widthOf xs) ys :=
  (hasFields_append.1 h).2

/-- A group of fields behind groups that have the same width each. -/
theorem HasFields.group (width : Nat) {fields : List (List Field)} {k : Nat} {part : List Field}
    (hf : ∀ part ∈ fields, widthOf part = width) (h : bytes.HasFields start fields.flatten)
    (hk : fields[k]? = some part) : bytes.HasFields (start + width * k) part := by
  induction fields generalizing start k with
  | nil => simp at hk
  | cons first rest ih =>
    rw [List.flatten_cons] at h
    cases k with
    | zero =>
      rw [List.getElem?_cons_zero, Option.some.injEq] at hk
      subst hk
      exact h.left
    | succ k =>
      have hrest := ih (fun other hother => hf other (List.mem_cons_of_mem _ hother)) h.right hk
      rwa [hf first List.mem_cons_self, Nat.add_assoc, ← Nat.add_comm (width * k), ← Nat.mul_succ]
        at hrest

/-- The fields of one of some items that have the same width each. -/
theorem HasFields.item {α : Type} {f : α → List Field} (width : Nat) {items : List α} {k : Nat}
    {a : α} (h : bytes.HasFields start (items.flatMap f))
    (hf : ∀ a ∈ items, widthOf (f a) = width) (hk : items[k]? = some a) :
    bytes.HasFields (start + width * k) (f a) := by
  rw [List.flatMap_def] at h
  refine h.group width (fun part hpart => ?_) (by rw [List.getElem?_map, hk, Option.map_some])
  obtain ⟨other, hother, rfl⟩ := List.mem_map.1 hpart
  exact hf other hother

/-- No number is too large for its field. -/
theorem HasFields.fits {fields : List Field} (h : bytes.HasFields start fields) :
    ∀ field ∈ fields, field.Fits := by
  induction fields generalizing start with
  | nil => simp
  | cons first rest ih =>
    rintro field (_ | ⟨_, hfield⟩)
    · exact h.2.1
    · exact ih h.2.2 field hfield

/-- The fields of a record that lies in another one. -/
theorem HasFields.within {part : Bytes} {offset : Nat} {fields : List Field}
    (h : part.HasFields offset fields) (hpart : bytes.HasAt start part.toList) :
    bytes.HasFields (start + offset) fields := by
  induction fields generalizing offset with
  | nil => trivial
  | cons field rest ih =>
    refine ⟨?_, h.2.1, ?_⟩
    · exact h.1.within hpart
    · rw [Nat.add_assoc]
      exact ih h.2.2

end Bytes

/-! ## The writer -/

namespace Writer

variable {w w' : Writer}

theorem place_eq_ok {bytes : List UInt8} {advance : Nat} :
    w.place bytes advance = .ok w' ↔
      (w.offset + bytes.length ≤ w.buffer.size ∧ w.offset + advance < wordLimit) ∧
        w' = ⟨w.buffer.overwrite w.offset bytes, w.offset + advance⟩ := by
  unfold place
  split
  · next h => simp [h, eq_comm]
  · next h => simp [h]

/-- What one write leaves: the new bytes at the cursor, and all that was there before it. -/
theorem place_spec {bytes : List UInt8} {advance : Nat} (h : w.place bytes advance = .ok w') :
    w'.offset = w.offset + advance ∧ w'.buffer.HasAt w.offset bytes ∧
      ∀ i, i < w.offset → w'.buffer[i]? = w.buffer[i]? := by
  obtain ⟨⟨hfit, -⟩, rfl⟩ := place_eq_ok.1 h
  refine ⟨rfl, Bytes.hasAt_overwrite hfit, fun i hi => ?_⟩
  rw [Bytes.getElem?_overwrite, if_neg (by omega)]

theorem write_spec {field : Field} (h : w.write field = .ok w') :
    field.Fits ∧ w'.offset = w.offset + field.width ∧ w'.buffer.HasAt w.offset field.written ∧
      ∀ i, i < w.offset → w'.buffer[i]? = w.buffer[i]? := by
  cases field with
  | byte value => exact ⟨trivial, place_spec h⟩
  | word value order =>
    have hput := place_spec h
    rw [ByteOrder.length_word] at hput
    exact ⟨trivial, hput⟩
  | long value order =>
    have hput := place_spec h
    rw [ByteOrder.length_long] at hput
    exact ⟨trivial, hput⟩
  | chars text width => exact ⟨trivial, place_spec h⟩
  | gap width =>
    simp only [write, skip] at h
    split at h
    · cases h
      exact ⟨trivial, rfl, fun j hj => absurd hj (Nat.not_lt_zero j), fun _ _ => rfl⟩
    · cases h
  | number value width context order =>
    simp only [write] at h
    split at h
    · cases h
    · next hfits =>
      refine ⟨Nat.not_lt.1 hfits, ?_⟩
      unfold Field.width Field.written
      split at h <;> have hput := place_spec h
      · exact hput
      · rw [ByteOrder.length_word] at hput
        exact hput
      · rw [ByteOrder.length_long] at hput
        split <;> simp_all

theorem writeAll_spec {fields : List Field} (h : w.writeAll fields = .ok w') :
    w'.offset = w.offset + widthOf fields ∧ w'.buffer.HasFields w.offset fields ∧
      ∀ i, i < w.offset → w'.buffer[i]? = w.buffer[i]? := by
  induction fields generalizing w with
  | nil =>
    cases h
    exact ⟨rfl, trivial, fun _ _ => rfl⟩
  | cons field rest ih =>
    simp only [writeAll, List.foldlM_cons, bind_eq_ok] at h
    obtain ⟨w₁, hfield, hrest⟩ := h
    obtain ⟨hfits, hoffset, hwritten, hbefore⟩ := write_spec hfield
    obtain ⟨hoffset', hfields, hbefore'⟩ := ih hrest
    have hlength := field.length_written_le
    refine ⟨?_, ⟨fun j hj => ?_, hfits, ?_⟩, fun i hi => ?_⟩
    · rw [hoffset', hoffset, widthOf_cons, Nat.add_assoc]
    · rw [hbefore' _ (by omega), hwritten j hj]
    · rwa [hoffset] at hfields
    · rw [hbefore' i (by omega), hbefore i hi]

end Writer

/-- Fields are written one after the other. -/
theorem Writer.writeAll_append_eq_ok {w w' : Writer} {xs ys : List Field} :
    w.writeAll (xs ++ ys) = .ok w' ↔ ∃ w₁, w.writeAll xs = .ok w₁ ∧ w₁.writeAll ys = .ok w' := by
  rw [Writer.writeAll, List.foldlM_append, bind_eq_ok]
  rfl

/-- **An encoded record holds its fields.** -/
theorem Record.hasFields_of_encode {declared : Nat} {fields : List Field} {bytes : Bytes}
    (h : Record.encode declared fields = .ok bytes) : bytes.HasFields 0 fields := by
  simp only [Record.encode, bind_eq_ok, pure_eq_ok] at h
  obtain ⟨w, hw, rfl⟩ := h
  exact (Writer.writeAll_spec hw).2.1

/-! ## Patches -/

theorem patchWord_eq_ok {bytes bytes' : Bytes} {offset : Nat} {value : UInt16} {order : ByteOrder} :
    bytes.patchWord offset value order = .ok bytes' ↔
      offset + 2 ≤ bytes.size ∧ bytes' = bytes.overwrite offset (order.word value) := by
  unfold Bytes.patchWord
  split
  · next h => simp [h, eq_comm]
  · next h => simp [h]

/-- Byte strings of one length that differ from `first` to `last` at most. -/
def Bytes.AgreeOutside (first last : Nat) (old new : Bytes) : Prop :=
  new.size = old.size ∧ ∀ i, i < first ∨ last < i → new[i]? = old[i]?

theorem agreeOutside_patchWord {bytes bytes' : Bytes} {offset first last : Nat} {value : UInt16}
    (hfirst : first ≤ offset) (hlast : offset + 1 ≤ last)
    (h : bytes.patchWord offset value = .ok bytes') : bytes.AgreeOutside first last bytes' := by
  obtain ⟨-, rfl⟩ := patchWord_eq_ok.1 h
  refine ⟨Bytes.size_overwrite _ _ _, fun i hi => ?_⟩
  rw [Bytes.getElem?_overwrite, ByteOrder.length_word, if_neg (by omega)]

theorem word?_patchWord {bytes bytes' : Bytes} {offset : Nat} {value : UInt16}
    (h : bytes.patchWord offset value = .ok bytes') : bytes'.word? offset = some value := by
  obtain ⟨hfit, rfl⟩ := patchWord_eq_ok.1 h
  exact (Bytes.hasAt_overwrite (by rwa [ByteOrder.length_word])).word?

theorem word?_patchWord_of_disjoint {bytes bytes' : Bytes} {offset other : Nat} {value : UInt16}
    (h : bytes.patchWord offset value = .ok bytes')
    (hother : other + 2 ≤ offset ∨ offset + 2 ≤ other) :
    bytes'.word? other = bytes.word? other := by
  obtain ⟨-, rfl⟩ := patchWord_eq_ok.1 h
  apply Bytes.word?_congr <;> rw [Bytes.getElem?_overwrite, if_neg] <;>
    rw [ByteOrder.length_word] <;> omega

end GameBundle
