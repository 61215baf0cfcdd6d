import GameBundle.Bundle.Index
import GameBundle.Proofs.Record.Reading
import GameBundle.Proofs.Steps

set_option autoImplicit false

/-! # Where the records of a bundle lie

The layout of a bundle by itself, without a writer or a reader: the entries of records that lie one
after the other, and the words of the index blocks. `indexBlocks_eq_ok` says that the writer spells
this layout, and `readBlocks_eq_ok` that the reader finds it again. -/

namespace GameBundle.Bundle

/-! ## Entries -/

/-- The bytes that some records take, each with its padding. -/
def room (bodies : List Bytes) : Nat := (bodies.map fun body => paddedLength body.size).sum

@[simp] theorem room_nil : room [] = 0 := rfl

@[simp] theorem room_cons (body : Bytes) (rest : List Bytes) :
    room (body :: rest) = paddedLength body.size + room rest := by simp [room]

theorem room_append (xs ys : List Bytes) : room (xs ++ ys) = room xs + room ys := by
  simp [room]

/-- The entries of records that lie one after the other from `start` on. -/
def entriesFrom (start : Nat) : List Bytes → List Entry
  | [] => []
  | body :: rest =>
    ⟨UInt32.ofNat start, UInt32.ofNat (paddedLength body.size)⟩ ::
      entriesFrom (start + paddedLength body.size) rest

/-- The entries of each kind, if `start` is where the records of the first kind start. -/
def blocksFrom (start : Nat) : List (List Bytes) → List (List Entry)
  | [] => []
  | bodies :: rest => entriesFrom start bodies :: blocksFrom (start + room bodies) rest

@[simp] theorem length_entriesFrom (start : Nat) (bodies : List Bytes) :
    (entriesFrom start bodies).length = bodies.length := by
  induction bodies generalizing start with
  | nil => rfl
  | cons body rest ih => simp [entriesFrom, ih]

@[simp] theorem length_blocksFrom (start : Nat) (kinds : List (List Bytes)) :
    (blocksFrom start kinds).length = kinds.length := by
  induction kinds generalizing start with
  | nil => rfl
  | cons bodies rest ih => simp [blocksFrom, ih]

theorem entriesFrom_append (start : Nat) (xs ys : List Bytes) :
    entriesFrom start (xs ++ ys) = entriesFrom start xs ++ entriesFrom (start + room xs) ys := by
  induction xs generalizing start with
  | nil => simp [entriesFrom]
  | cons body rest ih => simp [entriesFrom, ih, Nat.add_assoc]

theorem flatten_blocksFrom (start : Nat) (kinds : List (List Bytes)) :
    (blocksFrom start kinds).flatten = entriesFrom start kinds.flatten := by
  induction kinds generalizing start with
  | nil => rfl
  | cons bodies rest ih => simp [blocksFrom, ih, entriesFrom_append]

/-- The block of a kind starts where the records of the kinds before it end. -/
theorem getElem?_blocksFrom (start : Nat) {k : Nat} {kinds : List (List Bytes)}
    {bodies : List Bytes} (hk : kinds[k]? = some bodies) :
    (blocksFrom start kinds)[k]? =
      some (entriesFrom (start + room (kinds.take k).flatten) bodies) := by
  induction kinds generalizing start k with
  | nil => simp at hk
  | cons first rest ih =>
    cases k with
    | zero =>
      rw [List.getElem?_cons_zero, Option.some.injEq] at hk
      subst hk
      rfl
    | succ k =>
      rw [blocksFrom, List.getElem?_cons_succ, ih _ hk, List.take_succ_cons, List.flatten_cons,
        room_append, Nat.add_assoc]

/-- Every entry lies between the start of the first record and the end of the last. -/
theorem entriesFrom_bounds {start : Nat} {bodies : List Bytes} {e : Entry}
    (hfit : start + room bodies < UInt32.size) (he : e ∈ entriesFrom start bodies) :
    start ≤ e.offset.toNat ∧ e.offset.toNat + e.length.toNat ≤ start + room bodies := by
  induction bodies generalizing start with
  | nil => simp [entriesFrom] at he
  | cons body rest ih =>
    rw [room_cons] at hfit ⊢
    rcases List.mem_cons.1 he with rfl | he
    · simp only [UInt32.toNat_ofNat_of_lt' (show start < UInt32.size by omega),
        UInt32.toNat_ofNat_of_lt' (show paddedLength body.size < UInt32.size by omega)]
      omega
    · have := ih (by omega) he
      omega

/-! ## Tilings -/

/-- The entries follow on one another from `start` to `stop`, with no gap and no overlap. -/
def Tiles : Nat → Nat → List Entry → Prop
  | start, stop, [] => start = stop
  | start, stop, e :: rest => e.offset.toNat = start ∧ Tiles (start + e.length.toNat) stop rest

theorem tiles_entriesFrom (start : Nat) (bodies : List Bytes)
    (hfit : start + room bodies < UInt32.size) :
    Tiles start (start + room bodies) (entriesFrom start bodies) := by
  induction bodies generalizing start with
  | nil => rfl
  | cons body rest ih =>
    rw [room_cons] at hfit ⊢
    have hrest := ih (start + paddedLength body.size) (by omega)
    refine ⟨UInt32.toNat_ofNat_of_lt' (by omega), ?_⟩
    rwa [UInt32.toNat_ofNat_of_lt' (by omega), ← Nat.add_assoc]

/-! ## The words of the index -/

/-- The words of one index block. -/
def blockWords (entries : List Entry) : List UInt32 :=
  UInt32.ofNat entries.length :: (entries.map Entry.offset ++ entries.map Entry.length)

/-- A list of words in bytes. -/
def spell (words : List UInt32) : List UInt8 := words.flatMap ByteOrder.little.long

@[simp] theorem length_spell (words : List UInt32) : (spell words).length = 4 * words.length := by
  induction words with
  | nil => rfl
  | cons v rest ih =>
    rw [spell, List.flatMap_cons, List.length_append, ByteOrder.length_long, List.length_cons]
    rw [spell] at ih
    omega

theorem spell_append (xs ys : List UInt32) : spell (xs ++ ys) = spell xs ++ spell ys := by
  simp [spell]

theorem narrow_eq_ok {context : String} {value : Nat} {word : UInt32} :
    narrow context value = .ok word ↔ value < UInt32.size ∧ word = UInt32.ofNat value := by
  unfold narrow
  split
  · next h => simp [h, eq_comm]
  · next h => simp [h]

theorem offsets_eq_ok (start : Nat) {bodies : List Bytes}
    (hfit : start + room bodies < UInt32.size) :
    offsets start bodies =
      .ok ((entriesFrom start bodies).map Entry.offset, start + room bodies) := by
  induction bodies generalizing start with
  | nil => rfl
  | cons body rest ih =>
    rw [room_cons] at hfit
    have hrest := ih (start + paddedLength body.size) (by omega)
    have hstart : narrow "bundle offset" start = .ok (UInt32.ofNat start) :=
      narrow_eq_ok.2 ⟨by omega, rfl⟩
    rw [offsets, hstart]
    change (offsets (start + paddedLength body.size) rest >>= _) = _
    rw [hrest]
    simp [entriesFrom, bind, Except.bind, pure, Except.pure, Nat.add_assoc]

theorem mapM_lengths_eq_ok (start : Nat) {bodies : List Bytes} (hfit : room bodies < UInt32.size) :
    (bodies.mapM fun body => narrow "record length" (paddedLength body.size)) =
      .ok ((entriesFrom start bodies).map Entry.length) := by
  rw [mapM_eq_ok]
  induction bodies generalizing start with
  | nil => exact .nil
  | cons body rest ih =>
    rw [room_cons] at hfit
    exact .cons (narrow_eq_ok.2 ⟨by omega, rfl⟩) (ih _ (by omega))

theorem indexBlock_eq_ok (kind : Kind) {start : Nat} {bodies : List Bytes}
    (hfit : start + room bodies < UInt32.size) (hcount : bodies.length < UInt32.size) :
    indexBlock kind start bodies =
      .ok ((spell (blockWords (entriesFrom start bodies))).toArray, start + room bodies) := by
  have hroom : room bodies < UInt32.size := by omega
  rw [indexBlock, narrow_eq_ok.2 ⟨hcount, rfl⟩, offsets_eq_ok start hfit,
    mapM_lengths_eq_ok start hroom]
  simp [blockWords, spell, bind, Except.bind, pure, Except.pure]

theorem indexBlocks_eq_ok (start : Nat) {contents : List (Kind × List Bytes)}
    (hfit : start + room (contents.flatMap Prod.snd) < UInt32.size)
    (hcount : (contents.flatMap Prod.snd).length < UInt32.size) :
    indexBlocks start contents =
      .ok (spell ((blocksFrom start (contents.map Prod.snd)).flatMap blockWords)).toArray := by
  induction contents generalizing start with
  | nil => rfl
  | cons c rest ih =>
    obtain ⟨kind, bodies⟩ := c
    simp only [List.flatMap_cons, room_append] at hfit
    simp only [List.flatMap_cons, List.length_append] at hcount
    have hfirst : start + room bodies < UInt32.size := by omega
    have hblock := indexBlock_eq_ok kind hfirst (by omega)
    have hrest := ih (start + room bodies) (by omega) (by omega)
    rw [indexBlocks, hblock]
    change (indexBlocks (start + room bodies) rest >>= _) = _
    rw [hrest]
    simp [blocksFrom, spell_append, bind, Except.bind, pure, Except.pure]

theorem length_of_offsets {start stop : Nat} {bodies : List Bytes} {words : List UInt32}
    (h : offsets start bodies = .ok (words, stop)) : words.length = bodies.length := by
  induction bodies generalizing start stop words with
  | nil =>
    cases h
    rfl
  | cons body rest ih =>
    simp only [offsets, bind_eq_ok, pure_eq_ok, Prod.mk.injEq] at h
    obtain ⟨word, -, ⟨others, stop'⟩, hothers, rfl, -⟩ := h
    rw [List.length_cons, ih hothers, List.length_cons]

/-- Whatever the writer makes of the index, it has a word for each kind and two for each record. -/
theorem size_indexBlocks {start : Nat} {contents : List (Kind × List Bytes)} {index : Bytes}
    (h : indexBlocks start contents = .ok index) :
    index.size = 4 * contents.length + 8 * (contents.flatMap Prod.snd).length := by
  induction contents generalizing start index with
  | nil =>
    cases h
    rfl
  | cons c rest ih =>
    obtain ⟨kind, bodies⟩ := c
    simp only [indexBlocks, bind_eq_ok, pure_eq_ok] at h
    obtain ⟨⟨block, stop⟩, hblock, others, hothers, rfl⟩ := h
    have hrest := ih hothers
    simp only [indexBlock, bind_eq_ok, pure_eq_ok, Prod.mk.injEq] at hblock
    obtain ⟨count, -, ⟨offs, stop'⟩, hoffs, lengths, hlengths, rfl, -⟩ := hblock
    have hoffs' : offs.length = bodies.length := length_of_offsets hoffs
    have hlengths' := (mapM_eq_ok.1 hlengths).length_eq
    have hwords := length_spell (count :: offs ++ lengths)
    simp only [spell] at hwords
    simp only [Array.size_append, List.size_toArray, hwords, hrest, List.flatMap_cons,
      List.length_append, List.length_cons]
    omega

/-! ## Reading the index -/

theorem length_magic : magic.toUTF8.data.toList.length = 8 := by decide +kernel

theorem word_eq_ok {bytes : Bytes} {start : Nat} {v : UInt32}
    (h : bytes.HasAt start (ByteOrder.little.long v)) : Index.word bytes start = .ok v := by
  rw [Index.word, h.long?]

theorem readEntries_eq_ok {bytes : Bytes} {entries : List Entry} {offsets lengths : Nat}
    (hoffsets : bytes.HasAt offsets (spell (entries.map Entry.offset)))
    (hlengths : bytes.HasAt lengths (spell (entries.map Entry.length)))
    (hfit : ∀ e ∈ entries, e.offset.toNat + e.length.toNat ≤ bytes.size) :
    Index.readEntries bytes entries.length offsets lengths = .ok entries := by
  induction entries generalizing offsets lengths with
  | nil => rfl
  | cons e rest ih =>
    rw [List.map_cons, spell, List.flatMap_cons] at hoffsets hlengths
    have hrest := ih hoffsets.right hlengths.right fun e' he' =>
      hfit e' (List.mem_cons_of_mem _ he')
    rw [ByteOrder.length_long, ByteOrder.length_long] at hrest
    have hinside : ¬bytes.size < e.offset.toNat + e.length.toNat :=
      Nat.not_lt.2 (hfit e List.mem_cons_self)
    rw [List.length_cons, Index.readEntries, word_eq_ok hoffsets.left, word_eq_ok hlengths.left]
    change (if bytes.size < e.offset.toNat + e.length.toNat then _ else _) = _
    rw [if_neg hinside, hrest]
    rfl

theorem readBlocks_eq_ok {bytes : Bytes} {blocks : List (List Entry)} {start : Nat}
    (hindex : bytes.HasAt start (spell (blocks.flatMap blockWords)))
    (hcount : ∀ entries ∈ blocks, entries.length < UInt32.size)
    (hfit : ∀ e ∈ blocks.flatten, e.offset.toNat + e.length.toNat ≤ bytes.size) :
    Index.readBlocks bytes blocks.length start = .ok blocks := by
  induction blocks generalizing start with
  | nil => rfl
  | cons entries rest ih =>
    rw [List.flatMap_cons, spell_append] at hindex
    have hblock := hindex.left
    rw [blockWords, spell, List.flatMap_cons, ← spell, spell_append] at hblock
    have hwords : (spell (blockWords entries)).length = 4 + 8 * entries.length := by
      rw [length_spell, blockWords]
      simp only [List.length_cons, List.length_append, List.length_map]
      omega
    have hright := hindex.right
    rw [hwords, ← Nat.add_assoc] at hright
    have hrest := ih hright
      (fun e he => hcount e (List.mem_cons_of_mem _ he))
      (fun e he => hfit e (by rw [List.flatten_cons]; exact List.mem_append_right _ he))
    have hhead : (UInt32.ofNat entries.length).toNat = entries.length :=
      UInt32.toNat_ofNat_of_lt' (hcount entries List.mem_cons_self)
    have hentries := readEntries_eq_ok hblock.right.left
      (by have h := hblock.right.right
          rwa [length_spell, List.length_map] at h)
      (fun e he => hfit e (by rw [List.flatten_cons]; exact List.mem_append_left _ he))
    rw [ByteOrder.length_long] at hentries
    rw [List.length_cons, Index.readBlocks, word_eq_ok hblock.left]
    change (Index.readEntries bytes (UInt32.ofNat entries.length).toNat (start + 4)
      (start + 4 + 4 * (UInt32.ofNat entries.length).toNat) >>= _) = _
    rw [hhead, hentries]
    change (Index.readBlocks bytes rest.length (start + 4 + 8 * entries.length) >>= _) = _
    rw [hrest]
    rfl

/-- A bundle is read if its signature says the truth about it. -/
theorem parseWith_eq_ok {hash : Bytes → UInt32} {bytes : Bytes} {version checksum length : UInt32}
    {blocks : List (List Entry)} (hsize : signatureLength ≤ bytes.size)
    (hmagic : bytes.extract 0 8 = magic.toUTF8.data) (hversion : Index.word bytes 8 = .ok version)
    (hstored : Index.word bytes 12 = .ok checksum) (hlength : Index.word bytes 16 = .ok length)
    (hbytes : length.toNat = bytes.size)
    (hchecksum : hash (bytes.extract signatureLength bytes.size) = checksum)
    (hblocks : Index.readBlocks bytes Kind.count signatureLength = .ok blocks) :
    Index.parseWith hash bytes = .ok ⟨version, checksum, length, blocks⟩ := by
  have hstart : ¬(bytes.size < signatureLength ∨ bytes.extract 0 8 ≠ magic.toUTF8.data) := by
    rintro (hshort | hother)
    · exact Nat.not_lt.2 hsize hshort
    · exact hother hmagic
  rw [Index.parseWith, if_neg hstart]
  rw [hversion, hstored, hlength, hblocks]
  change (if length.toNat ≠ bytes.size then _ else _) = _
  rw [if_neg (not_not_intro hbytes), if_neg (not_not_intro hchecksum)]
  rfl

end GameBundle.Bundle
