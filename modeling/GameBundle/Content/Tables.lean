import GameBundle.Content.Kind
import GameBundle.Error
import GameBundle.Record.Bytes

set_option autoImplicit false

/-! # The tables of a bundle

A record is known by its index in the table of its kind. Tables only grow: a record is added with
its bytes, or it is reserved first and filled later, so that other records can refer to it in the
meantime. Indices are 16-bit words, which limits a table to 65536 records.

`records_add` and `records_change` say what the two ways of changing the tables do to each of
them. -/

namespace GameBundle

/-- An entry of a table. The bytes are missing as long as the record is only reserved. -/
structure Record where
  name : String
  bytes : Option Bytes
  deriving Repr, Inhabited

/-- One table of records for each kind. -/
structure Tables where
  rows : Array (Array Record)
  size_rows : rows.size = Kind.count

namespace Tables

/-- Tables without records. -/
def empty : Tables := ⟨Array.replicate Kind.count #[], by simp⟩

instance : Inhabited Tables := ⟨empty⟩
instance : EmptyCollection Tables := ⟨empty⟩

theorem position_lt_size (t : Tables) (kind : Kind) : kind.position < t.rows.size :=
  t.size_rows ▸ kind.position_lt

/-- The records of a kind, in the order of their indices. -/
def records (t : Tables) (kind : Kind) : Array Record :=
  have := t.position_lt_size kind
  t.rows[kind.position]

/-- The number of records of a kind. -/
def count (t : Tables) (kind : Kind) : Nat := (t.records kind).size

/-- Change the table of a kind. -/
def change (t : Tables) (kind : Kind) (f : Array Record → Array Record) : Tables :=
  ⟨t.rows.modify kind.position f, by rw [Array.size_modify, t.size_rows]⟩

theorem records_change (t : Tables) (kind : Kind) (f : Array Record → Array Record) (k : Kind) :
    (t.change kind f).records k = if k = kind then f (t.records kind) else t.records k := by
  simp only [records, change, Array.getElem_modify]
  by_cases h : k = kind
  · subst h
    simp
  · have : kind.position ≠ k.position := fun e => h (Kind.position_inj e).symm
    simp [this, h]

/-- Add a record at the end of the table of its kind. -/
def add (t : Tables) (kind : Kind) (record : Record) : Tables := t.change kind (·.push record)

theorem records_add (t : Tables) (kind : Kind) (record : Record) (k : Kind) :
    (t.add kind record).records k =
      if k = kind then (t.records kind).push record else t.records k :=
  records_change t kind _ k

@[simp] theorem records_empty (kind : Kind) : empty.records kind = #[] := by
  simp [records, empty]

/-- Give the record at an index its bytes. -/
def set (t : Tables) (kind : Kind) (index : Nat) (bytes : Bytes) : Tables :=
  t.change kind fun records =>
    records.modify index fun record => { record with bytes := some bytes }

/-! ## Steps -/

/-- A record that is asked for but is not there. -/
def absent (kind : Kind) (index : UInt16) (reason : String) : BuildError :=
  .malformed s!"{kind.label} record {index}" reason

/-- The index of the next record of a kind. -/
def nextIndex (kind : Kind) : Step Tables UInt16 := do
  let count := (← get).count kind
  if count < UInt16.size then return UInt16.ofNat count
  else reject (.fieldOverflow s!"{kind.label} table index" count 2)

/-- Add a record with its bytes and return its index. -/
def push (kind : Kind) (name : String) (bytes : Bytes) : Step Tables UInt16 := do
  let index ← nextIndex kind
  modify (·.add kind ⟨name, some bytes⟩)
  return index

/-- Claim the next index; the bytes come later. -/
def reserve (kind : Kind) (name : String) : Step Tables UInt16 := do
  let index ← nextIndex kind
  modify (·.add kind ⟨name, none⟩)
  return index

/-- Give a record its bytes. -/
def fill (kind : Kind) (index : UInt16) (bytes : Bytes) : Step Tables Unit := do
  if index.toNat < (← get).count kind then modify (·.set kind index.toNat bytes)
  else reject (absent kind index "was never reserved")

/-- The bytes of a record. -/
def bytesOf (kind : Kind) (index : UInt16) : Step Tables Bytes := do
  match ((← get).records kind)[index.toNat]? with
  | none => reject (absent kind index "was never reserved")
  | some ⟨_, none⟩ => reject (absent kind index "has not been encoded yet")
  | some ⟨_, some bytes⟩ => return bytes

/-- Change the bytes of a record that has been filled. -/
def update (kind : Kind) (index : UInt16) (f : Bytes → Except Failure Bytes) :
    Step Tables Unit := do
  let bytes ← f (← bytesOf kind index)
  modify (·.set kind index.toNat bytes)

end Tables

end GameBundle
