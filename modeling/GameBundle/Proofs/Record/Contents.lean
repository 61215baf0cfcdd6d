import GameBundle.Proofs.Record.Fields

set_option autoImplicit false

/-! # All bytes of a record

`Bytes.HasFields` says what fields left in a record. Here is the whole of it: a record is what its
fields wrote, one after the other, with zero bytes behind a text that is too short, in gaps and in
the padding. A record that has room for its fields is either made or refused for a number that does
not fit. A `Reader` takes such a record apart from its first byte on. -/

namespace GameBundle

/-! ## Images -/

namespace Field

/-- The bytes a field takes, with those that it leaves at zero. -/
def image (field : Field) : List UInt8 :=
  field.written ++ List.replicate (field.width - field.written.length) 0

theorem length_image (field : Field) : field.image.length = field.width := by
  have hle := field.length_written_le
  rw [image, List.length_append, List.length_replicate]
  omega

end Field

/-- The bytes that some fields take. -/
def contentsOf (fields : List Field) : List UInt8 := fields.flatMap Field.image

theorem contentsOf_cons (field : Field) (rest : List Field) :
    contentsOf (field :: rest) = field.image ++ contentsOf rest := List.flatMap_cons

theorem contentsOf_append (xs ys : List Field) : contentsOf (xs ++ ys) = contentsOf xs ++ contentsOf ys :=
  List.flatMap_append

/-! ## Writing -/

theorem Bytes.toList_overwrite {bytes : Bytes} {before old after new : List UInt8}
    (h : bytes.toList = before ++ (old ++ after)) (hlength : old.length = new.length) :
    (bytes.overwrite before.length new).toList = before ++ (new ++ after) := by
  induction new generalizing bytes before old with
  | nil =>
    obtain rfl := List.eq_nil_of_length_eq_zero hlength
    exact h
  | cons b new ih =>
    obtain ⟨c, old, rfl⟩ := List.exists_cons_of_length_eq_add_one hlength
    have hset : (bytes.setIfInBounds before.length b).toList = (before ++ [b]) ++ (old ++ after) := by
      rw [Array.toList_setIfInBounds, h]
      simp
    have hrest := ih hset (by simpa using hlength)
    rw [List.length_append, List.length_singleton] at hrest
    rw [Bytes.overwrite, hrest]
    simp

namespace Writer

variable {w : Writer} {done : List UInt8} {left : Nat}

/-- The bytes in front of the cursor are `done`, and the `left` ones behind it are zero. -/
structure Holds (w : Writer) (done : List UInt8) (left : Nat) : Prop where
  buffer : w.buffer.toList = done ++ List.replicate left 0
  offset : w.offset = done.length

theorem Holds.size (h : w.Holds done left) : w.buffer.size = done.length + left := by
  rw [← Array.length_toList, h.buffer, List.length_append, List.length_replicate]

theorem put_of_room {part : List UInt8} {width : Nat} (hlength : part.length = width)
    (hroom : w.offset + width ≤ w.buffer.size) (hword : w.offset + width < wordLimit) :
    w.put part = .ok ⟨w.buffer.overwrite w.offset part, w.offset + width⟩ := by
  subst hlength
  exact place_eq_ok.2 ⟨⟨hroom, hword⟩, rfl⟩

/-- A field that there is room for is written. -/
theorem write_eq {field : Field} (hfits : field.Fits)
    (hroom : w.offset + field.width ≤ w.buffer.size) (hword : w.offset + field.width < wordLimit) :
    w.write field = .ok ⟨w.buffer.overwrite w.offset field.written, w.offset + field.width⟩ := by
  cases field with
  | byte value => exact put_of_room rfl hroom hword
  | word value order => exact put_of_room (order.length_word value) hroom hword
  | long value order => exact put_of_room (order.length_long value) hroom hword
  | chars text width =>
    have hlength := (Field.chars text width).length_written_le
    exact place_eq_ok.2 ⟨⟨Nat.le_trans (Nat.add_le_add_left hlength _) hroom, hword⟩, rfl⟩
  | gap width => exact if_pos hword
  | number value width context order =>
    refine (if_neg (Nat.not_lt.2 hfits)).trans ?_
    rcases width with _ | _ | _ | _
    · exact put_of_room (order.length_long _) hroom hword
    · exact put_of_room rfl hroom hword
    · exact put_of_room (order.length_word _) hroom hword
    · exact put_of_room (order.length_long _) hroom hword

theorem Holds.write {field : Field} (h : w.Holds done (field.width + left)) (hfits : field.Fits)
    (hword : done.length + field.width < wordLimit) :
    ∃ w', w.write field = .ok w' ∧ w'.Holds (done ++ field.image) left := by
  refine ⟨_, write_eq hfits ?_ (h.offset ▸ hword), ?_, ?_⟩
  · have hsize := h.size
    have hoffset := h.offset
    omega
  · have hle := field.length_written_le
    have hsplit : List.replicate (field.width + left) (0 : UInt8) =
        List.replicate field.written.length 0 ++
          (List.replicate (field.width - field.written.length) 0 ++ List.replicate left 0) := by
      rw [← List.replicate_add, ← List.replicate_add]
      congr 1
      omega
    have hbuffer := h.buffer
    rw [hsplit] at hbuffer
    rw [h.offset, Bytes.toList_overwrite hbuffer (List.length_replicate), Field.image,
      List.append_assoc, List.append_assoc]
  · rw [h.offset, List.length_append, Field.length_image]

theorem Holds.writeAll {fields : List Field} (h : w.Holds done (widthOf fields + left))
    (hfits : ∀ field ∈ fields, field.Fits) (hword : done.length + widthOf fields < wordLimit) :
    ∃ w', w.writeAll fields = .ok w' ∧ w'.Holds (done ++ contentsOf fields) left := by
  induction fields generalizing w done with
  | nil => exact ⟨w, rfl, by simpa [contentsOf] using h⟩
  | cons field rest ih =>
    rw [widthOf_cons] at h hword
    rw [Nat.add_assoc] at h
    obtain ⟨w₁, hfield, hholds⟩ := h.write (hfits field List.mem_cons_self) (by omega)
    obtain ⟨w', hrest, hholds'⟩ := ih hholds (fun f hf => hfits f (List.mem_cons_of_mem _ hf))
      (by rw [List.length_append, Field.length_image]; omega)
    refine ⟨w', ?_, ?_⟩
    · rw [Writer.writeAll, List.foldlM_cons, hfield]
      exact hrest
    · rwa [List.append_assoc] at hholds'

/-- The first number that does not fit is refused, and what would follow it does not matter. -/
theorem Holds.writeAll_error {fields rest : List Field} (h : w.Holds done (widthOf fields + left))
    (hword : done.length + widthOf fields < wordLimit) (hfits : ¬∀ field ∈ fields, field.Fits) :
    ∃ value width context, maxForWidth width < value ∧
      w.writeAll (fields ++ rest) = .error (.error (.fieldOverflow context value width)) := by
  induction fields generalizing w done with
  | nil => exact absurd (fun _ hf => absurd hf List.not_mem_nil) hfits
  | cons field fields ih =>
    rw [widthOf_cons] at h hword
    rw [Nat.add_assoc] at h
    rw [List.forall_mem_cons] at hfits
    simp only [List.cons_append, Writer.writeAll, List.foldlM_cons, bind_eq_error]
    by_cases hfield : field.Fits
    · obtain ⟨w₁, hwrite, hholds⟩ := h.write hfield (by omega)
      obtain ⟨value, width, context, hlarge, herror⟩ := ih hholds
        (by rw [List.length_append, Field.length_image]; omega) (fun hall => hfits ⟨hfield, hall⟩)
      exact ⟨value, width, context, hlarge, .inr ⟨w₁, hwrite, herror⟩⟩
    · cases field with
      | number value width context order =>
        have hlarge := Nat.lt_of_not_le hfield
        refine ⟨value, width, context, hlarge, .inl ?_⟩
        unfold Writer.write
        exact if_pos hlarge
      | _ => exact absurd trivial hfield

theorem holds_new (declared : Nat) : (new declared).Holds [] (paddedLength declared) :=
  ⟨Array.toList_replicate, rfl⟩

/-- The record in which `done` has been written, with `left` bytes to go. -/
def holding (done : List UInt8) (left : Nat) : Writer :=
  ⟨(done ++ List.replicate left 0).toArray, done.length⟩

theorem Holds.eq_holding (h : w.Holds done left) : w = holding done left := by
  obtain ⟨buffer, offset⟩ := w
  have hbuffer : buffer = (done ++ List.replicate left 0).toArray := Array.toList_inj.1 h.buffer
  have hoffset : offset = done.length := h.offset
  rw [hbuffer, hoffset, holding]

theorem new_eq_holding (declared : Nat) : new declared = holding [] (paddedLength declared) :=
  (holds_new declared).eq_holding

theorem write_holding {field : Field} (hfits : field.Fits)
    (hword : done.length + field.width < wordLimit) :
    (holding done (field.width + left)).write field = .ok (holding (done ++ field.image) left) := by
  have hholding : (holding done (field.width + left)).Holds done (field.width + left) := ⟨rfl, rfl⟩
  obtain ⟨w', hw', hholds⟩ := hholding.write hfits hword
  rw [hw', hholds.eq_holding]

end Writer

/-! ## Records -/

namespace Record

variable {declared : Nat} {fields : List Field}

/-- **The bytes of a record are those of its fields**, and zero in the padding. -/
theorem encode_eq (hroom : widthOf fields ≤ declared) (hword : widthOf fields < wordLimit)
    (hfits : ∀ field ∈ fields, field.Fits) :
    encode declared fields = .ok (contentsOf fields ++
      List.replicate (paddedLength declared - widthOf fields) 0).toArray := by
  have hpadded := le_paddedLength declared
  have hnew := Writer.holds_new declared
  rw [← Nat.add_sub_of_le (Nat.le_trans hroom hpadded)] at hnew
  obtain ⟨w, hw, hholds⟩ := hnew.writeAll hfits (by simpa using hword)
  rw [encode, hw]
  exact congrArg Except.ok (Array.toList_inj.1 hholds.buffer)

/-- Fields that fill the record are all there is. -/
theorem encode_full (hwidth : widthOf fields = declared) (hpadded : 4 ∣ declared)
    (hword : declared < wordLimit) (hfits : ∀ field ∈ fields, field.Fits) :
    encode declared fields = .ok (contentsOf fields).toArray := by
  rw [encode_eq (Nat.le_of_eq hwidth) (hwidth ▸ hword) hfits, hwidth, paddedLength_of_dvd hpadded,
    Nat.sub_self, List.replicate_zero, List.append_nil]

/-- A record is refused for a number that does not fit its field. -/
theorem encode_eq_error {rest : List Field} (hroom : widthOf fields ≤ declared)
    (hword : widthOf fields < wordLimit) (hfits : ¬∀ field ∈ fields, field.Fits) :
    ∃ value width context, maxForWidth width < value ∧
      encode declared (fields ++ rest) = .error (.error (.fieldOverflow context value width)) := by
  have hpadded := le_paddedLength declared
  have hnew := Writer.holds_new declared
  rw [← Nat.add_sub_of_le (Nat.le_trans hroom hpadded)] at hnew
  obtain ⟨value, width, context, hlarge, herror⟩ :=
    hnew.writeAll_error (by simpa using hword) hfits
  exact ⟨value, width, context, hlarge, by rw [encode, herror]; rfl⟩

end Record

/-! ## Readers -/

/-- A reader takes bytes from the front. -/
abbrev Reader (α : Type) : Type := StateT (List UInt8) Option α

namespace Reader

variable {α β : Type}

/-- The next `count` bytes. -/
def bytes (count : Nat) : Reader (List UInt8) := fun input =>
  if count ≤ input.length then some (input.take count, input.drop count) else none

def byte : Reader UInt8
  | [] => none
  | b :: rest => some (b, rest)

/-- A word, low byte first. -/
def word : Reader UInt16 := do
  let low ← byte
  let high ← byte
  return low.toUInt16 ||| high.toUInt16 <<< 8

/-- A long word, low byte first. -/
def long : Reader UInt32 := do
  let b₀ ← byte
  let b₁ ← byte
  let b₂ ← byte
  let b₃ ← byte
  return b₀.toUInt32 ||| b₁.toUInt32 <<< 8 ||| b₂.toUInt32 <<< 16 ||| b₃.toUInt32 <<< 24

def byteNumber : Reader Nat := do return (← byte).toNat

def wordNumber : Reader Nat := do return (← word).toNat

/-- Bytes that have to be zero. -/
def zeros (count : Nat) : Reader Unit := do
  let found ← bytes count
  if found = List.replicate count 0 then return () else failure

/-- The same thing again and again. -/
def many (item : Reader α) : Nat → Reader (List α)
  | 0 => return []
  | count + 1 => do
    let first ← item
    return first :: (← many item count)

/-- The reader takes `part` and makes `a` of it. -/
def Reads (r : Reader α) (part : List UInt8) (a : α) : Prop :=
  ∀ rest, r (part ++ rest) = some (a, rest)

theorem reads_pure (a : α) : Reads (pure a) [] a := fun _ => rfl

theorem Reads.bind {r : Reader α} {f : α → Reader β} {part part' : List UInt8} {a : α} {b : β}
    (hr : Reads r part a) (hf : Reads (f a) part' b) : Reads (r >>= f) (part ++ part') b := by
  intro rest
  change (r (part ++ part' ++ rest)).bind (fun p => f p.1 p.2) = some (b, rest)
  rw [List.append_assoc, hr]
  exact hf rest

/-- What is made of the last thing that is read. -/
theorem Reads.map {r : Reader α} {f : α → β} {part : List UInt8} {a : α} (hr : Reads r part a) :
    Reads (do return f (← r)) part (f a) := by
  have hmap := hr.bind (f := fun a => pure (f a)) (reads_pure (f a))
  rwa [List.append_nil] at hmap

theorem reads_bytes {count : Nat} {part : List UInt8} (h : part.length = count) :
    Reads (bytes count) part part := by
  intro rest
  subst h
  rw [bytes, if_pos (by simp), List.take_left, List.drop_left]

theorem reads_byte (b : UInt8) : Reads byte [b] b := fun _ => rfl

theorem reads_word (v : UInt16) : Reads word (ByteOrder.data.word v) v := by
  intro rest
  exact congrArg (fun joined => some (joined, rest)) (Bytes.joined_word v)

theorem reads_byteNumber {value : Nat} (h : value ≤ 255) (context : String) :
    Reads byteNumber (Field.number value 1 context).image value := by
  have hread := (reads_byte value.toUInt8).map (f := UInt8.toNat)
  rwa [show value.toUInt8.toNat = value from UInt8.toNat_ofNat_of_lt' (Nat.lt_succ_of_le h)] at hread

theorem reads_byteField (b : UInt8) : Reads byte (Field.byte b).image b := reads_byte b

theorem reads_wordField (v : UInt16) : Reads word (Field.word v).image v := reads_word v

theorem reads_longField (v : UInt32) : Reads long (Field.long v).image v := by
  intro rest
  exact congrArg (fun joined => some (joined, rest)) (Bytes.joined_long v)

theorem reads_wordNumber {value : Nat} (h : value ≤ 65535) (context : String) :
    Reads wordNumber (Field.number value 2 context).image value := by
  have hread := (reads_word value.toUInt16).map (f := UInt16.toNat)
  rwa [show value.toUInt16.toNat = value from UInt16.toNat_ofNat_of_lt' (Nat.lt_succ_of_le h)]
    at hread

/-- A text is cut off behind its field or filled up with zero bytes. -/
theorem reads_chars (text : String) (width : Nat) : Reads (bytes width) (Field.chars text width).image
    ((text.toUTF8.toList ++ List.replicate width 0).take width) := by
  have himage : (Field.chars text width).image =
      (text.toUTF8.toList ++ List.replicate width 0).take width := by
    rw [Field.image, Field.written, Field.width, List.take_append, List.take_replicate,
      List.length_take]
    congr 2
    omega
  rw [himage]
  exact reads_bytes (by simp)

theorem reads_zeros (count : Nat) : Reads (zeros count) (List.replicate count 0) () := by
  have hcheck : Reads (if List.replicate count (0 : UInt8) = List.replicate count 0 then return ()
      else failure) [] () := by
    rw [if_pos rfl]
    exact reads_pure ()
  have hbytes : Reads (bytes count) (List.replicate count 0) (List.replicate count 0) :=
    reads_bytes List.length_replicate
  have hzeros : Reads (zeros count) (List.replicate count 0 ++ []) () := hbytes.bind hcheck
  rwa [List.append_nil] at hzeros

theorem reads_many {item : Reader α} {parts : List (List UInt8)} {items : List α}
    (h : List.Forall₂ (Reads item) parts items) :
    Reads (many item items.length) parts.flatten items := by
  induction h with
  | nil => exact reads_pure []
  | cons hfirst _ ih => exact hfirst.bind ih.map

/-- What a reader makes of a whole record. -/
def readAll? (r : Reader α) (record : Bytes) : Option α :=
  match r record.toList with
  | some (a, []) => some a
  | _ => none

theorem Reads.readAll? {r : Reader α} {part : List UInt8} {a : α} {record : Bytes}
    (h : Reads r part a) (hrecord : record.toList = part) : r.readAll? record = some a := by
  have hread := h []
  rw [List.append_nil] at hread
  rw [Reader.readAll?, hrecord, hread]

end Reader

end GameBundle