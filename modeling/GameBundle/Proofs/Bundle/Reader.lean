import GameBundle.Proofs.Bundle.Layout

set_option autoImplicit false

/-! # What the reader accepts

The bytes of a bundle place its index blocks: each block starts where the one before it ends, and
how long it is its own first word says. `parse_eq_ok` says what the reader makes of a bundle,
`exists_parse_iff` which bytes are one. Nothing here trusts what the bytes say. -/

namespace GameBundle

/-- The number that the four bytes from `start` on spell; zero if they are not all there. -/
def Bytes.longAt (bytes : Bytes) (start : Nat) : Nat :=
  ((bytes.long? start).map UInt32.toNat).getD 0

namespace Bytes

variable {bytes : Bytes} {start : Nat}

theorem longAt_of_long? {v : UInt32} (h : bytes.long? start = some v) :
    bytes.longAt start = v.toNat := by
  rw [longAt, h]
  rfl

theorem longAt_lt (bytes : Bytes) (start : Nat) : bytes.longAt start < UInt32.size := by
  cases h : bytes.long? start with
  | none =>
    rw [longAt, h]
    decide
  | some v =>
    rw [longAt_of_long? h]
    exact v.toNat_lt

/-- The bytes of a long word that was put together from bytes. -/
theorem split_long (b₀ b₁ b₂ b₃ : UInt8) :
    ByteOrder.little.long
        (b₀.toUInt32 ||| b₁.toUInt32 <<< 8 ||| b₂.toUInt32 <<< 16 ||| b₃.toUInt32 <<< 24) =
      [b₀, b₁, b₂, b₃] := by
  have hhigh : ∀ b : UInt8, ∀ i, 8 ≤ i → b.toNat.testBit i = false := fun b i h =>
    Nat.testBit_lt_two_pow (Nat.lt_of_lt_of_le b.toNat_lt (Nat.pow_le_pow_right (by decide) h))
  simp only [ByteOrder.long, ByteOrder.arrange, List.cons.injEq, and_true]
  refine ⟨?_, ?_, ?_, ?_⟩ <;>
  · apply UInt8.toNat_inj.1
    apply Nat.eq_of_testBit_eq
    intro i
    simp only [UInt32.toNat_or, UInt32.toNat_shiftLeft, UInt8.toNat_toUInt32, UInt32.toNat_toUInt8,
      UInt32.toNat_shiftRight, Nat.testBit_lor, Nat.testBit_mod_two_pow, Nat.testBit_shiftLeft,
      Nat.testBit_shiftRight, UInt32.toNat_ofNat]
    grind

/-- A long word is read where its bytes are, and nowhere else. -/
theorem long?_eq_some_iff {v : UInt32} :
    bytes.long? start = some v ↔ bytes.HasAt start (ByteOrder.little.long v) := by
  refine ⟨fun h => ?_, HasAt.long?⟩
  simp only [long?, Option.bind_eq_bind, Option.bind_eq_some_iff, Option.pure_def,
    Option.some.injEq] at h
  obtain ⟨b₀, h₀, b₁, h₁, b₂, h₂, b₃, h₃, rfl⟩ := h
  rw [split_long]
  intro j hj
  rcases j with _ | _ | _ | _ | j
  · exact h₀
  · exact h₁
  · exact h₂
  · exact h₃
  · exact absurd hj (Nat.not_lt.2 (Nat.le_add_left 4 j))

theorem exists_long?_iff : (∃ v, bytes.long? start = some v) ↔ start + 4 ≤ bytes.size := by
  constructor
  · rintro ⟨v, h⟩
    have hfit := (long?_eq_some_iff.1 h).le_size (List.cons_ne_nil _ _)
    rwa [ByteOrder.length_long] at hfit
  · intro h
    apply Option.isSome_iff_exists.1
    rw [long?, Array.getElem?_eq_getElem (show start < bytes.size by omega),
      Array.getElem?_eq_getElem (show start + 1 < bytes.size by omega),
      Array.getElem?_eq_getElem (show start + 2 < bytes.size by omega),
      Array.getElem?_eq_getElem (show start + 3 < bytes.size by omega)]
    rfl

/-- Bytes that lie inside are spelled by the long word they are read as. -/
theorem long?_of_le (h : start + 4 ≤ bytes.size) :
    bytes.long? start = some (UInt32.ofNat (bytes.longAt start)) := by
  obtain ⟨v, hv⟩ := exists_long?_iff.2 h
  rw [longAt_of_long? hv, hv, UInt32.ofNat_toNat]

/-- The length of a slice that exists. -/
theorem slice?_of_le {length : Nat} (h : start + length ≤ bytes.size) :
    ∃ part, bytes.slice? start length = some part ∧ part.size = length ∧
      bytes.HasAt start part.toList := by
  refine ⟨_, if_pos h, ?_, ?_⟩
  · rw [Array.size_extract]
    omega
  · intro j hj
    rw [Array.length_toList, Array.size_extract] at hj
    rw [Array.getElem?_toList, Array.getElem?_extract, if_pos (by omega)]

end Bytes

namespace Bundle

/-! ## Index blocks -/

/-- Where the index block behind the one at `start` lies. -/
def nextBlock (bytes : Bytes) (start : Nat) : Nat := start + 4 + 8 * bytes.longAt start

/-- Where index block number `k` lies. -/
def blockStart (bytes : Bytes) (k : Nat) : Nat := (nextBlock bytes)^[k] signatureLength

/-- The number of entries that index block number `k` stores. -/
def storedCount (bytes : Bytes) (k : Nat) : Nat := bytes.longAt (blockStart bytes k)

/-- The offset that entry number `i` of index block number `k` stores. -/
def storedOffset (bytes : Bytes) (k i : Nat) : Nat := bytes.longAt (blockStart bytes k + 4 + 4 * i)

/-- The length that entry number `i` of index block number `k` stores. -/
def storedLength (bytes : Bytes) (k i : Nat) : Nat :=
  bytes.longAt (blockStart bytes k + 4 + 4 * storedCount bytes k + 4 * i)

/-- The entry whose words lie at `offset` and at `length` is `e`, and its record lies inside. -/
structure EntryAt (bytes : Bytes) (offset length : Nat) (e : Entry) : Prop where
  offset_eq : bytes.long? offset = some e.offset
  length_eq : bytes.long? length = some e.length
  inside : e.offset.toNat + e.length.toNat ≤ bytes.size

/-- The index block at `start` stores the entries `entries`. -/
structure BlockAt (bytes : Bytes) (start : Nat) (entries : List Entry) : Prop where
  inside : start + 4 ≤ bytes.size
  count : entries.length = bytes.longAt start
  entry : ∀ i e, entries[i]? = some e →
    EntryAt bytes (start + 4 + 4 * i) (start + 4 + 4 * bytes.longAt start + 4 * i) e

theorem word_eq_ok_iff {bytes : Bytes} {start : Nat} {v : UInt32} :
    Index.word bytes start = .ok v ↔ bytes.long? start = some v := by
  rw [Index.word]
  split
  · next h => simp [h]
  · next h => simp [h]

theorem readEntries_eq_ok_iff {bytes : Bytes} {count offsets lengths : Nat} {entries : List Entry} :
    Index.readEntries bytes count offsets lengths = .ok entries ↔
      entries.length = count ∧ ∀ i e, entries[i]? = some e →
        EntryAt bytes (offsets + 4 * i) (lengths + 4 * i) e := by
  induction count generalizing offsets lengths entries with
  | zero =>
    rw [Index.readEntries, Except.ok.injEq]
    constructor
    · rintro rfl
      exact ⟨rfl, fun i e h => by simp at h⟩
    · rintro ⟨h, -⟩
      exact (List.length_eq_zero_iff.1 h).symm
  | succ count ih =>
    simp only [Index.readEntries, bind_eq_ok, word_eq_ok_iff]
    constructor
    · rintro ⟨offset, hoffset, length, hlength, h⟩
      split at h
      · cases h
      · next hinside =>
        simp only [bind_eq_ok, pure_eq_ok] at h
        obtain ⟨rest, hrest, rfl⟩ := h
        obtain ⟨hcount, hentry⟩ := ih.1 hrest
        refine ⟨by rw [List.length_cons, hcount], fun i e he => ?_⟩
        cases i with
        | zero =>
          rw [List.getElem?_cons_zero, Option.some.injEq] at he
          subst he
          exact ⟨hoffset, hlength, Nat.not_lt.1 hinside⟩
        | succ i =>
          have := hentry i e he
          rwa [Nat.add_assoc, Nat.add_assoc, Nat.add_comm 4, ← Nat.mul_succ] at this
    · rintro ⟨hcount, hentry⟩
      obtain ⟨first, rest, rfl⟩ := List.exists_cons_of_length_eq_add_one hcount
      have hfirst := hentry 0 first rfl
      refine ⟨first.offset, hfirst.offset_eq, first.length, hfirst.length_eq, ?_⟩
      rw [if_neg (Nat.not_lt.2 hfirst.inside), bind_eq_ok]
      refine ⟨rest, ih.2 ⟨Nat.succ.inj hcount, fun i e he => ?_⟩, rfl⟩
      have := hentry (i + 1) e he
      rwa [Nat.mul_succ, Nat.add_comm (4 * i), ← Nat.add_assoc, ← Nat.add_assoc] at this

theorem readBlocks_eq_ok_iff {bytes : Bytes} {n start : Nat} {blocks : List (List Entry)} :
    Index.readBlocks bytes n start = .ok blocks ↔
      blocks.length = n ∧ ∀ k entries, blocks[k]? = some entries →
        BlockAt bytes ((nextBlock bytes)^[k] start) entries := by
  induction n generalizing start blocks with
  | zero =>
    rw [Index.readBlocks, Except.ok.injEq]
    constructor
    · rintro rfl
      exact ⟨rfl, fun k entries h => by simp at h⟩
    · rintro ⟨h, -⟩
      exact (List.length_eq_zero_iff.1 h).symm
  | succ n ih =>
    simp only [Index.readBlocks, bind_eq_ok, pure_eq_ok, word_eq_ok_iff, readEntries_eq_ok_iff]
    constructor
    · rintro ⟨count, hcount, entries, ⟨hlength, hentry⟩, rest, hrest, rfl⟩
      have hstored := Bytes.longAt_of_long? hcount
      obtain ⟨hblocks, hblock⟩ := ih.1 hrest
      refine ⟨by rw [List.length_cons, hblocks], fun k others hk => ?_⟩
      cases k with
      | zero =>
        rw [List.getElem?_cons_zero, Option.some.injEq] at hk
        subst hk
        rw [← hstored] at hlength hentry
        exact ⟨Bytes.exists_long?_iff.1 ⟨count, hcount⟩, hlength, hentry⟩
      | succ k =>
        have := hblock k others hk
        rwa [← hstored, ← nextBlock, ← Function.iterate_succ_apply] at this
    · rintro ⟨hblocks, hblock⟩
      obtain ⟨entries, rest, rfl⟩ := List.exists_cons_of_length_eq_add_one hblocks
      obtain ⟨hinside, hcount, hentry⟩ := hblock 0 entries rfl
      obtain ⟨count, hcount'⟩ := Bytes.exists_long?_iff.2 hinside
      rw [Function.iterate_zero_apply] at hcount hentry hcount'
      have hstored := Bytes.longAt_of_long? hcount'
      rw [hstored] at hentry hcount
      refine ⟨count, hcount', entries, ⟨hcount, hentry⟩, rest, ih.2 ⟨Nat.succ.inj hblocks, ?_⟩, rfl⟩
      intro k others hk
      have := hblock (k + 1) others hk
      rwa [Function.iterate_succ_apply, nextBlock, hstored] at this

/-! ## The signature -/

/-- The reader finds `index` in the bytes. -/
structure Accepts (bytes : Bytes) (index : Index) : Prop where
  start : bytes.HasAt 0 magic.toUTF8.data.toList
  version : bytes.long? 8 = some index.version
  stored : bytes.long? checksumOffset = some index.checksum
  length : bytes.long? lengthOffset = some index.length
  size : index.length.toNat = bytes.size
  checksum : Crc32.checksum (bytes.extract signatureLength bytes.size) = index.checksum
  blocks : Index.readBlocks bytes Kind.count signatureLength = .ok index.blocks

/-- The magic bytes, as the reader compares them. -/
theorem extract_eq_magic {bytes : Bytes} (hsize : 8 ≤ bytes.size) :
    bytes.extract 0 8 = magic.toUTF8.data ↔ bytes.HasAt 0 magic.toUTF8.data.toList := by
  constructor
  · intro h j hj
    rw [length_magic] at hj
    rw [← h, Array.getElem?_toList, Array.getElem?_extract, if_pos (by omega)]
  · intro h
    have := h.extract (by rw [length_magic]; omega)
    rwa [length_magic] at this

/-- **What the reader makes of a bundle**: the words of the signature, which have to say the truth
    about the bytes, and the index blocks. -/
theorem parse_eq_ok {bytes : Bytes} {index : Index} :
    Index.parse bytes = .ok index ↔ Accepts bytes index := by
  constructor
  · intro h
    rw [Index.parse, Index.parseWith] at h
    split at h
    · cases h
    next hstart =>
    simp only [not_or, Nat.not_lt, not_not] at hstart
    obtain ⟨hsize, hmagic⟩ := hstart
    simp only [bind_eq_ok, word_eq_ok_iff] at h
    obtain ⟨version, hversion, stored, hstored, length, hlength, h⟩ := h
    split at h
    · cases h
    next hbytes =>
    split at h
    · cases h
    next hchecksum =>
    simp only [bind_eq_ok, pure_eq_ok] at h
    obtain ⟨blocks, hblocks, rfl⟩ := h
    have hstart : 8 ≤ bytes.size := Nat.le_trans (by decide) hsize
    exact ⟨(extract_eq_magic hstart).1 hmagic, hversion, hstored, hlength, not_not.1 hbytes,
      not_not.1 hchecksum, hblocks⟩
  · intro h
    have hsize := Bytes.exists_long?_iff.1 ⟨_, h.length⟩
    have hstart : 8 ≤ bytes.size := Nat.le_trans (by decide) hsize
    exact parseWith_eq_ok hsize ((extract_eq_magic hstart).2 h.start) (word_eq_ok_iff.2 h.version)
      (word_eq_ok_iff.2 h.stored) (word_eq_ok_iff.2 h.length) h.size h.checksum h.blocks

/-! ## Bytes that are a bundle -/

/-- The bytes start like a bundle, store their own length and checksum, and hold fifteen index
    blocks, all of whose entries lie inside. -/
structure Readable (bytes : Bytes) : Prop where
  start : bytes.HasAt 0 magic.toUTF8.data.toList
  length : bytes.longAt lengthOffset = bytes.size
  checksum : bytes.longAt checksumOffset =
    (Crc32.checksum (bytes.extract signatureLength bytes.size)).toNat
  blocks : ∀ k, k < Kind.count → blockStart bytes (k + 1) ≤ bytes.size
  entries : ∀ k, k < Kind.count → ∀ i, i < storedCount bytes k →
    storedOffset bytes k i + storedLength bytes k i ≤ bytes.size

theorem blockStart_succ (bytes : Bytes) (k : Nat) :
    blockStart bytes (k + 1) = blockStart bytes k + 4 + 8 * storedCount bytes k := by
  rw [blockStart, Function.iterate_succ_apply', ← blockStart, nextBlock, ← storedCount]

/-- The entry that the bytes store under the number `i` in index block number `k`. -/
def storedEntry (bytes : Bytes) (k i : Nat) : Entry :=
  ⟨UInt32.ofNat (storedOffset bytes k i), UInt32.ofNat (storedLength bytes k i)⟩

/-- The entries of index block number `k`. -/
def storedEntries (bytes : Bytes) (k : Nat) : List Entry :=
  (List.range (storedCount bytes k)).map (storedEntry bytes k)

theorem length_storedEntries (bytes : Bytes) (k : Nat) :
    (storedEntries bytes k).length = storedCount bytes k := by
  rw [storedEntries, List.length_map, List.length_range]

theorem getElem?_storedEntries {bytes : Bytes} {k i : Nat} (hi : i < storedCount bytes k) :
    (storedEntries bytes k)[i]? = some (storedEntry bytes k i) := by
  rw [storedEntries, List.getElem?_map, List.getElem?_range hi, Option.map_some]

theorem storedEntry_offset (bytes : Bytes) (k i : Nat) :
    (storedEntry bytes k i).offset.toNat = storedOffset bytes k i :=
  UInt32.toNat_ofNat_of_lt' (bytes.longAt_lt _)

theorem storedEntry_length (bytes : Bytes) (k i : Nat) :
    (storedEntry bytes k i).length.toNat = storedLength bytes k i :=
  UInt32.toNat_ofNat_of_lt' (bytes.longAt_lt _)

theorem BlockAt.eq_storedEntries {bytes : Bytes} {k : Nat} {entries : List Entry}
    (h : BlockAt bytes (blockStart bytes k) entries) : entries = storedEntries bytes k := by
  apply List.ext_getElem?
  intro i
  by_cases hi : i < storedCount bytes k
  · rw [getElem?_storedEntries hi]
    obtain ⟨e, he⟩ : ∃ e, entries[i]? = some e := ⟨_, List.getElem?_eq_getElem (h.count ▸ hi)⟩
    have hentry := h.entry i e he
    have hoffset := Bytes.longAt_of_long? hentry.offset_eq
    have hlength := Bytes.longAt_of_long? hentry.length_eq
    rw [he, storedEntry, storedOffset, storedLength, storedCount, hoffset, hlength,
      UInt32.ofNat_toNat, UInt32.ofNat_toNat]
  · rw [List.getElem?_eq_none (by rw [h.count]; exact Nat.not_lt.1 hi),
      List.getElem?_eq_none (by rw [length_storedEntries]; exact Nat.not_lt.1 hi)]

theorem BlockAt.inside_of_lt {bytes : Bytes} {k i : Nat} {entries : List Entry}
    (h : BlockAt bytes (blockStart bytes k) entries) (hi : i < storedCount bytes k) :
    EntryAt bytes (blockStart bytes k + 4 + 4 * i)
      (blockStart bytes k + 4 + 4 * storedCount bytes k + 4 * i) (storedEntry bytes k i) :=
  h.entry i _ (h.eq_storedEntries ▸ getElem?_storedEntries hi)

/-- An index block is read if it lies inside, and what its entries describe does too. -/
theorem blockAt_iff {bytes : Bytes} {k : Nat} {entries : List Entry} :
    BlockAt bytes (blockStart bytes k) entries ↔
      entries = storedEntries bytes k ∧ blockStart bytes (k + 1) ≤ bytes.size ∧
        ∀ i, i < storedCount bytes k →
          storedOffset bytes k i + storedLength bytes k i ≤ bytes.size := by
  rw [blockStart_succ]
  constructor
  · intro h
    refine ⟨h.eq_storedEntries, ?_, fun i hi => ?_⟩
    · rcases Nat.eq_zero_or_pos (storedCount bytes k) with hnone | hsome
      · rw [hnone]
        exact h.inside
      · -- the last word of the block is the length of its last entry
        have hlast := (h.inside_of_lt (Nat.sub_lt hsome Nat.one_pos)).length_eq
        have := Bytes.exists_long?_iff.1 ⟨_, hlast⟩
        omega
    · have := (h.inside_of_lt hi).inside
      rwa [storedEntry_offset, storedEntry_length] at this
  · rintro ⟨rfl, hinside, hentries⟩
    refine ⟨by omega, length_storedEntries bytes k, fun i e he => ?_⟩
    have hi : i < storedCount bytes k := by
      rw [← length_storedEntries]
      exact (List.getElem?_eq_some_iff.1 he).1
    rw [getElem?_storedEntries hi, Option.some.injEq] at he
    subst he
    refine ⟨Bytes.long?_of_le (by omega), Bytes.long?_of_le ?_, ?_⟩
    · rw [← storedCount]
      omega
    · rw [storedEntry_offset, storedEntry_length]
      exact hentries i hi

theorem Accepts.blockAt {bytes : Bytes} {index : Index} (h : Accepts bytes index) {k : Nat}
    (hk : k < Kind.count) : BlockAt bytes (blockStart bytes k) (storedEntries bytes k) := by
  obtain ⟨hlength, hblock⟩ := readBlocks_eq_ok_iff.1 h.blocks
  have hread := hblock k _ (List.getElem?_eq_getElem (hlength ▸ hk))
  exact hread.eq_storedEntries ▸ hread

/-- What the reader finds under a kind is what the bytes store there. -/
theorem Accepts.getElem?_blocks {bytes : Bytes} {index : Index} (h : Accepts bytes index)
    (kind : Kind) : index.blocks[kind.position]? = some (storedEntries bytes kind.position) := by
  obtain ⟨hlength, hblock⟩ := readBlocks_eq_ok_iff.1 h.blocks
  have hk := List.getElem?_eq_getElem (l := index.blocks) (hlength ▸ kind.position_lt)
  rw [hk, ← (hblock _ _ hk).eq_storedEntries]

/-- **Which bytes are a bundle.** -/
theorem exists_accepts_iff {bytes : Bytes} : (∃ index, Accepts bytes index) ↔ Readable bytes := by
  constructor
  · rintro ⟨index, h⟩
    refine ⟨h.start, ?_, ?_, fun k hk => ?_, fun k hk => ?_⟩
    · rw [Bytes.longAt_of_long? h.length, h.size]
    · rw [Bytes.longAt_of_long? h.stored, h.checksum]
    · exact (blockAt_iff.1 (h.blockAt hk)).2.1
    · exact (blockAt_iff.1 (h.blockAt hk)).2.2
  · intro h
    have hfirst := h.blocks 0 (by decide)
    have hzero : blockStart bytes 0 = 20 := rfl
    rw [blockStart_succ, hzero] at hfirst
    have hblocks : Index.readBlocks bytes Kind.count signatureLength =
        .ok ((List.range Kind.count).map (storedEntries bytes)) := by
      rw [readBlocks_eq_ok_iff]
      refine ⟨by rw [List.length_map, List.length_range], fun k entries hk => ?_⟩
      have hlt := (List.getElem?_eq_some_iff.1 hk).1
      rw [List.length_map, List.length_range] at hlt
      rw [List.getElem?_map, List.getElem?_range hlt, Option.map_some, Option.some.injEq] at hk
      exact blockAt_iff.2 ⟨hk.symm, h.blocks k hlt, h.entries k hlt⟩
    obtain ⟨version, hversion⟩ := Bytes.exists_long?_iff.2 (show 8 + 4 ≤ bytes.size by omega)
    refine ⟨⟨version, UInt32.ofNat (bytes.longAt checksumOffset),
      UInt32.ofNat (bytes.longAt lengthOffset), _⟩, h.start, hversion,
      Bytes.long?_of_le ?_, Bytes.long?_of_le ?_, ?_, ?_, hblocks⟩
    · rw [checksumOffset]
      omega
    · rw [lengthOffset]
      omega
    · rw [UInt32.toNat_ofNat_of_lt' (bytes.longAt_lt _), h.length]
    · rw [h.checksum, UInt32.ofNat_toNat]

end Bundle

end GameBundle
