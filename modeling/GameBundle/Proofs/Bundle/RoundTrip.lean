import GameBundle.Proofs.Bundle.Layout

set_option autoImplicit false

/-! # A bundle reads back as the tables it was made of

`assembleWith_eq_ok` says exactly when tables can be assembled and what comes out: a signature, the
index blocks and the padded records of `Layout`, one behind the other. From there on the reader is
followed through that image. Nothing is asked of the checksum, which may be any function. -/

namespace GameBundle.Bundle

/-! ## Tables that can be assembled -/

/-- Every record has its bytes. -/
def Filled (tables : Tables) : Prop :=
  ∀ kind, ∀ record ∈ (tables.records kind).toList, record.bytes.isSome

instance (tables : Tables) : Decidable (Filled tables) :=
  decidable_of_iff (∀ kind ∈ Kind.all, ∀ record ∈ (tables.records kind).toList, record.bytes.isSome)
    ⟨fun h kind => h kind (Kind.mem_all kind), fun h kind _ => h kind⟩

/-- The bytes of the records of a kind, nothing for one that is only reserved. -/
def bodiesOf (tables : Tables) (kind : Kind) : List Bytes :=
  (tables.records kind).toList.map fun record => record.bytes.getD #[]

/-- The bytes of all records, kind after kind. -/
def allBodies (tables : Tables) : List Bytes := Kind.all.flatMap (bodiesOf tables)

/-- The number of records of all kinds. -/
def recordCount (tables : Tables) : Nat := (Kind.all.map tables.count).sum

/-- The length of the bundle: the signature, a word for each kind, two words for each record, and
    the padded records. -/
def laidOutSize (tables : Tables) : Nat :=
  20 + 15 * 4 + 8 * recordCount tables +
    (Kind.all.map fun kind =>
      ((bodiesOf tables kind).map fun body => paddedLength body.size).sum).sum

theorem length_bodiesOf (tables : Tables) (kind : Kind) :
    (bodiesOf tables kind).length = tables.count kind := by
  simp [bodiesOf, Tables.count]

theorem length_allBodies (tables : Tables) : (allBodies tables).length = recordCount tables := by
  simp only [allBodies, recordCount, List.length_flatMap, length_bodiesOf]

theorem room_flatMap {α : Type} (f : α → List Bytes) (xs : List α) :
    room (xs.flatMap f) = (xs.map fun x => room (f x)).sum := by
  induction xs with
  | nil => rfl
  | cons x rest ih => rw [List.flatMap_cons, room_append, ih, List.map_cons, List.sum_cons]

/-- Where the records start, and where they end. -/
theorem laidOutSize_eq (tables : Tables) :
    laidOutSize tables =
      signatureLength + indexLength (allBodies tables).length + room (allBodies tables) := by
  rw [length_allBodies, allBodies, room_flatMap]
  simp only [laidOutSize, signatureLength, indexLength, Kind.count, room]
  omega

theorem body_eq_ok {kind : Kind} {index : Nat} {record : Record} {bytes : Bytes} :
    body kind index record = .ok bytes ↔ record.bytes = some bytes := by
  unfold body
  split
  · next h => simp [h]
  · next h => simp [h]

theorem forall₂_bytes_iff {records : List Record} {bytes : List Bytes} :
    List.Forall₂ (fun record b => record.bytes = some b) records bytes ↔
      (∀ record ∈ records, record.bytes.isSome) ∧
        bytes = records.map fun record => record.bytes.getD #[] := by
  induction records generalizing bytes with
  | nil => simp
  | cons record rest ih =>
    simp only [List.forall₂_cons_left_iff, ih, List.forall_mem_cons, List.map_cons]
    constructor
    · rintro ⟨b, others, hb, ⟨hrest, rfl⟩, rfl⟩
      rw [hb]
      exact ⟨⟨rfl, hrest⟩, rfl⟩
    · rintro ⟨⟨hhead, hrest⟩, rfl⟩
      obtain ⟨b, hb⟩ := Option.isSome_iff_exists.1 hhead
      rw [hb]
      exact ⟨b, _, rfl, ⟨hrest, rfl⟩, rfl⟩

theorem bodies_eq_ok {tables : Tables} {kind : Kind} {bytes : List Bytes} :
    bodies tables kind = .ok bytes ↔
      (∀ record ∈ (tables.records kind).toList, record.bytes.isSome) ∧
        bytes = bodiesOf tables kind := by
  simp only [bodies, mapM_eq_ok, body_eq_ok, bodiesOf, ← forall₂_bytes_iff]
  rw [← List.forall₂_map_left_iff (f := Prod.fst)
    (R := fun record b => Record.bytes record = some b), List.zipIdx_map_fst]

theorem contents_eq_ok {tables : Tables} {contents : List (Kind × List Bytes)} :
    (Kind.all.mapM fun kind => do return (kind, ← bodies tables kind)) = Except.ok contents ↔
      Filled tables ∧ contents = Kind.all.map fun kind => (kind, bodiesOf tables kind) := by
  simp only [mapM_eq_ok, bind_eq_ok, pure_eq_ok, bodies_eq_ok]
  constructor
  · intro h
    have hfilled : Filled tables := by
      intro kind
      obtain ⟨i, hi⟩ := List.getElem?_of_mem (Kind.mem_all kind)
      obtain ⟨hlen, hall⟩ := List.forall₂_iff_get.1 h
      obtain ⟨hlt, hget⟩ := List.getElem?_eq_some_iff.1 hi
      obtain ⟨bs, ⟨hkind, -⟩, -⟩ := hall i hlt (hlen ▸ hlt)
      rw [List.get_eq_getElem, hget] at hkind
      exact hkind
    refine ⟨hfilled, ?_⟩
    have heq : List.Forall₂ (fun p kind => p = (kind, bodiesOf tables kind)) contents Kind.all :=
      List.Forall₂.flip (h.imp fun kind p hp => by
        obtain ⟨bs, ⟨-, rfl⟩, rfl⟩ := hp
        rfl)
    rw [← List.forall₂_eq_eq_eq, List.forall₂_map_right_iff]
    exact heq
  · rintro ⟨hfilled, rfl⟩
    rw [List.forall₂_map_right_iff, List.forall₂_same]
    exact fun kind _ => ⟨_, ⟨hfilled kind, rfl⟩, rfl⟩

/-! ## What comes out -/

/-- The entries of each kind. -/
def blocksOf (tables : Tables) : List (List Entry) :=
  blocksFrom (signatureLength + indexLength (allBodies tables).length)
    (Kind.all.map (bodiesOf tables))

/-- A bundle that is complete apart from checksum and length. -/
def unsigned (tables : Tables) : Bytes :=
  (blankSignature.toList ++ spell ((blocksOf tables).flatMap blockWords) ++
    (allBodies tables).flatMap fun body => (Bytes.pad body).toList).toArray

theorem length_blankSignature : blankSignature.toList.length = signatureLength := by
  decide +kernel

theorem length_padded (bodies : List Bytes) :
    (bodies.flatMap fun body => (Bytes.pad body).toList).length = room bodies := by
  simp [List.length_flatMap, room]

theorem length_index (tables : Tables) :
    (spell ((blocksOf tables).flatMap blockWords)).length =
      indexLength (allBodies tables).length := by
  have hentries : ∀ blocks : List (List Entry),
      (blocks.flatMap blockWords).length = blocks.length + 2 * blocks.flatten.length := by
    intro blocks
    induction blocks with
    | nil => rfl
    | cons entries rest ih =>
      simp only [List.flatMap_cons, List.length_append, ih, blockWords, List.length_cons,
        List.length_map, List.flatten_cons]
      omega
  have hkinds : Kind.all.length = Kind.count := rfl
  rw [length_spell, hentries, blocksOf, flatten_blocksFrom, length_entriesFrom, length_blocksFrom,
    List.length_map, hkinds, indexLength, allBodies, List.flatMap_def]
  omega

theorem size_unsigned (tables : Tables) : (unsigned tables).size = laidOutSize tables := by
  rw [laidOutSize_eq, unsigned, List.size_toArray, List.length_append, List.length_append,
    length_blankSignature, length_index, length_padded]

/-- The writer pads what it has so far, not the record alone. Both come to the same, since what is
    there before a record has a padded length already. -/
theorem foldl_pad {bundle : Bytes} {bodies : List Bytes} (hbundle : 4 ∣ bundle.size) :
    (bodies.foldl (fun bundle body => Bytes.pad (bundle ++ body)) bundle).toList =
      bundle.toList ++ bodies.flatMap fun body => (Bytes.pad body).toList := by
  induction bodies generalizing bundle with
  | nil => simp
  | cons body rest ih =>
    have hpad : Bytes.pad (bundle ++ body) = bundle ++ Bytes.pad body := by
      have hlen : paddedLength (bundle.size + body.size) - (bundle.size + body.size) =
          paddedLength body.size - body.size := by
        unfold paddedLength
        omega
      simp only [Bytes.pad, Array.size_append, hlen, Array.append_assoc]
    have hdvd : 4 ∣ (bundle ++ Bytes.pad body).size := by
      rw [Array.size_append, Bytes.size_pad]
      exact Nat.dvd_add hbundle (four_dvd_paddedLength _)
    rw [List.foldl_cons, hpad, ih hdvd, Array.toList_append, List.append_assoc, List.flatMap_cons]

theorem foldl_pad_size {bundle : Bytes} {bodies : List Bytes} (hbundle : 4 ∣ bundle.size) :
    (bodies.foldl (fun bundle body => Bytes.pad (bundle ++ body)) bundle).size =
      bundle.size + room bodies := by
  rw [← Array.length_toList, foldl_pad hbundle, List.length_append, length_padded,
    Array.length_toList]

/-- What the writer makes of an index that is spelled as it should be. -/
theorem foldl_pad_index (tables : Tables) :
    (allBodies tables).foldl (fun bundle body => Bytes.pad (bundle ++ body))
        (blankSignature ++ (spell ((blocksOf tables).flatMap blockWords)).toArray) =
      unsigned tables := by
  have hsize : (blankSignature ++ (spell ((blocksOf tables).flatMap blockWords)).toArray).size =
      signatureLength + indexLength (allBodies tables).length := by
    rw [Array.size_append, ← Array.length_toList, length_blankSignature, List.size_toArray,
      length_index]
  apply Array.ext'
  rw [foldl_pad, unsigned, Array.toList_append]
  rw [hsize, signatureLength, indexLength]
  omega

/-- **When tables can be assembled, and what comes out.** -/
theorem assembleWith_eq_ok {hash : Bytes → UInt32} {tables : Tables} {bundle : Bytes} :
    assembleWith hash tables = .ok bundle ↔
      Filled tables ∧ laidOutSize tables < UInt32.size ∧
        bundle = sign hash (UInt32.ofNat (laidOutSize tables)) (unsigned tables) := by
  have hall : (Kind.all.map fun kind => (kind, bodiesOf tables kind)).flatMap Prod.snd =
      allBodies tables := by
    rw [List.flatMap_map, allBodies]
  have hlaidOut := laidOutSize_eq tables
  have hindex : laidOutSize tables < UInt32.size →
      indexBlocks (signatureLength + indexLength (allBodies tables).length)
          (Kind.all.map fun kind => (kind, bodiesOf tables kind)) =
        .ok (spell ((blocksOf tables).flatMap blockWords)).toArray := by
    intro hlt
    rw [hlaidOut, indexLength] at hlt
    rw [indexBlocks_eq_ok _ (by rw [hall, indexLength]; omega) (by rw [hall]; omega), List.map_map]
    rfl
  simp only [assembleWith, bind_eq_ok, pure_eq_ok, contents_eq_ok, narrow_eq_ok]
  constructor
  · rintro ⟨contents, ⟨hfilled, rfl⟩, index, hwritten, length, ⟨hlength, rfl⟩, rfl⟩
    rw [hall] at hwritten hlength ⊢
    -- the length is checked last, so all that is known of the index so far is how long it is
    have hsize := size_indexBlocks hwritten
    rw [hall, List.length_map, show Kind.all.length = Kind.count from rfl, ← indexLength] at hsize
    have hbefore : (blankSignature ++ index).size =
        signatureLength + indexLength (allBodies tables).length := by
      rw [Array.size_append, hsize, ← Array.length_toList, length_blankSignature]
    have hdvd : 4 ∣ (blankSignature ++ index).size := by
      rw [hbefore, signatureLength, indexLength]
      omega
    rw [foldl_pad_size hdvd, hbefore, ← hlaidOut] at hlength
    rw [hindex hlength, Except.ok.injEq] at hwritten
    rw [← hwritten, foldl_pad_index, size_unsigned]
    exact ⟨hfilled, hlength, rfl⟩
  · rintro ⟨hfilled, hlength, hbundle⟩
    refine ⟨_, ⟨hfilled, rfl⟩, (spell ((blocksOf tables).flatMap blockWords)).toArray, ?_,
      UInt32.ofNat (laidOutSize tables), ?_, ?_⟩
    · rw [hall]
      exact hindex hlength
    · rw [hall, foldl_pad_index, size_unsigned]
      exact ⟨hlength, rfl⟩
    · rw [hall, foldl_pad_index, hbundle]

/-! ## Reading it back -/

section Reading

variable {hash : Bytes → UInt32} {length : UInt32} {bundle : Bytes} {start : Nat}
  {part : List UInt8}

@[simp] theorem size_sign : (sign hash length bundle).size = bundle.size := by simp [sign]

theorem hasAt_sign (hash : Bytes → UInt32) (length : UInt32) (h : bundle.HasAt start part)
    (hstart : start + part.length ≤ checksumOffset ∨ signatureLength ≤ start) :
    (sign hash length bundle).HasAt start part := by
  simp only [checksumOffset, signatureLength] at hstart
  apply Bytes.HasAt.overwrite_of_disjoint
  · apply h.overwrite_of_disjoint
    rw [ByteOrder.length_long, lengthOffset]
    omega
  · rw [ByteOrder.length_long, checksumOffset]
    omega

theorem hasAt_sign_checksum (hsize : signatureLength ≤ bundle.size) :
    (sign hash length bundle).HasAt checksumOffset
      (ByteOrder.little.long (hash (bundle.extract signatureLength bundle.size))) := by
  simp only [signatureLength] at hsize
  apply Bytes.hasAt_overwrite
  simp only [Bytes.size_overwrite, ByteOrder.length_long, checksumOffset]
  omega

theorem hasAt_sign_length (hsize : signatureLength ≤ bundle.size) :
    (sign hash length bundle).HasAt lengthOffset (ByteOrder.little.long length) := by
  simp only [signatureLength] at hsize
  apply Bytes.HasAt.overwrite_of_disjoint
  · apply Bytes.hasAt_overwrite
    rw [ByteOrder.length_long, lengthOffset]
    omega
  · simp only [ByteOrder.length_long, checksumOffset, lengthOffset]
    omega

/-- The checksum is taken of bytes that signing does not touch. -/
theorem extract_sign :
    (sign hash length bundle).extract signatureLength (sign hash length bundle).size =
      bundle.extract signatureLength bundle.size := by
  apply Array.ext_getElem?
  intro i
  simp only [Array.getElem?_extract, size_sign]
  split
  · rw [sign, Bytes.getElem?_overwrite, if_neg, Bytes.getElem?_overwrite, if_neg] <;>
      simp only [ByteOrder.length_long, checksumOffset, lengthOffset, signatureLength] <;> omega
  · rfl

end Reading

theorem signatureLength_le_size (tables : Tables) : signatureLength ≤ (unsigned tables).size := by
  rw [size_unsigned, laidOutSize_eq]
  omega

theorem unsigned_hasAt_magic (tables : Tables) :
    (unsigned tables).HasAt 0 magic.toUTF8.data.toList := by
  apply Bytes.hasAt_of_toList []
  rw [unsigned, blankSignature, Array.toList_append, Array.toList_appendList]
  simp only [List.append_assoc, List.nil_append]
  rfl

theorem unsigned_hasAt_version (tables : Tables) :
    (unsigned tables).HasAt 8 (ByteOrder.little.long version) := by
  rw [← length_magic]
  apply Bytes.hasAt_of_toList
  rw [unsigned, blankSignature, Array.toList_append, Array.toList_appendList]
  simp only [List.append_assoc]
  rfl

theorem unsigned_hasAt_index (tables : Tables) :
    (unsigned tables).HasAt signatureLength (spell ((blocksOf tables).flatMap blockWords)) := by
  rw [← length_blankSignature]
  apply Bytes.hasAt_of_toList
  rw [unsigned, List.append_assoc]

theorem unsigned_hasAt_records (tables : Tables) :
    (unsigned tables).HasAt (signatureLength + indexLength (allBodies tables).length)
      ((allBodies tables).flatMap fun body => (Bytes.pad body).toList) := by
  rw [← length_index, ← length_blankSignature, ← List.length_append]
  apply Bytes.hasAt_of_toList _ []
  rw [unsigned, List.append_nil]

theorem length_blocksOf (tables : Tables) : (blocksOf tables).length = Kind.count := by
  rw [blocksOf, length_blocksFrom, List.length_map]
  rfl

/-- All entries in kind-then-index order. -/
theorem flatten_blocksOf (tables : Tables) :
    (blocksOf tables).flatten =
      entriesFrom (signatureLength + indexLength (allBodies tables).length) (allBodies tables) := by
  rw [blocksOf, flatten_blocksFrom, allBodies, List.flatMap_def]

/-- The signature is found to be right, and the index blocks are read back. -/
theorem parseWith_sign (hash : Bytes → UInt32) {tables : Tables}
    (hsize : laidOutSize tables < UInt32.size) :
    ∃ checksum, Index.parseWith hash
        (sign hash (UInt32.ofNat (laidOutSize tables)) (unsigned tables)) =
      .ok ⟨version, checksum, UInt32.ofNat (laidOutSize tables), blocksOf tables⟩ := by
  have hle := signatureLength_le_size tables
  have hlaidOut := laidOutSize_eq tables
  have hfull : (sign hash (UInt32.ofNat (laidOutSize tables)) (unsigned tables)).size =
      laidOutSize tables := by rw [size_sign, size_unsigned]
  have hmagic := hasAt_sign hash (UInt32.ofNat (laidOutSize tables)) (unsigned_hasAt_magic tables)
    (Or.inl (by decide +kernel))
  have hindex := hasAt_sign hash (UInt32.ofNat (laidOutSize tables)) (unsigned_hasAt_index tables)
    (Or.inr (Nat.le_refl _))
  refine ⟨_, parseWith_eq_ok ?_ ?_ (word_eq_ok (hasAt_sign _ _ (unsigned_hasAt_version tables) ?_))
    (word_eq_ok (hasAt_sign_checksum hle)) (word_eq_ok (hasAt_sign_length hle)) ?_ ?_ ?_⟩
  · rwa [size_sign]
  · have h := hmagic.extract (by rw [hfull, hlaidOut, length_magic, signatureLength]; omega)
    rwa [length_magic] at h
  · rw [ByteOrder.length_long, checksumOffset]
    omega
  · rw [hfull, UInt32.toNat_ofNat_of_lt' hsize]
  · rw [extract_sign]
  · rw [← length_blocksOf tables]
    apply readBlocks_eq_ok hindex
    · intro entries hentries
      have hshort := (List.sublist_flatten_of_mem hentries).length_le
      rw [flatten_blocksOf, length_entriesFrom] at hshort
      rw [indexLength] at hlaidOut
      omega
    · intro e he
      rw [flatten_blocksOf] at he
      rw [hlaidOut] at hsize
      rw [hfull, hlaidOut]
      exact (entriesFrom_bounds hsize he).2

/-! ## Finding the records -/

/-- Each entry leads to the record it was made for. -/
theorem slice?_entriesFrom {bundle : Bytes} {bodies : List Bytes} {start i : Nat} {body : Bytes}
    (hfit : start + room bodies < UInt32.size) (hsize : start + room bodies ≤ bundle.size)
    (hrecords : bundle.HasAt start (bodies.flatMap fun body => (Bytes.pad body).toList))
    (hbody : bodies[i]? = some body) :
    ∃ e, (entriesFrom start bodies)[i]? = some e ∧
      bundle.slice? e.offset.toNat e.length.toNat = some (Bytes.pad body) := by
  induction bodies generalizing start i with
  | nil => simp at hbody
  | cons first rest ih =>
    rw [room_cons] at hfit hsize
    rw [List.flatMap_cons] at hrecords
    have hlength : (Bytes.pad first).toList.length = paddedLength first.size := by
      rw [Array.length_toList, Bytes.size_pad]
    cases i with
    | zero =>
      rw [List.getElem?_cons_zero, Option.some.injEq] at hbody
      subst hbody
      refine ⟨_, rfl, ?_⟩
      have hslice := hrecords.left.slice? (by rw [hlength]; omega)
      rw [hlength] at hslice
      simp only [UInt32.toNat_ofNat_of_lt' (show start < UInt32.size by omega),
        UInt32.toNat_ofNat_of_lt' (show paddedLength first.size < UInt32.size by omega)]
      rw [hslice]
    | succ i =>
      -- the other records start behind the padding of the first
      have hrest := hrecords.right
      rw [hlength] at hrest
      have hfit' : start + paddedLength first.size + room rest < UInt32.size := by omega
      exact ih hfit' (by omega) hrest hbody

theorem getElem?_contents (tables : Tables) (kind : Kind) :
    (Kind.all.map (bodiesOf tables))[kind.position]? = some (bodiesOf tables kind) := by
  rw [List.getElem?_map, Kind.getElem?_all]
  rfl

/-- The records of a kind lie between those of the kinds before it and those of the kinds after. -/
theorem allBodies_eq (tables : Tables) (kind : Kind) :
    allBodies tables =
      ((Kind.all.map (bodiesOf tables)).take kind.position).flatten ++
        (bodiesOf tables kind ++
          ((Kind.all.map (bodiesOf tables)).drop (kind.position + 1)).flatten) := by
  obtain ⟨hlt, hget⟩ := List.getElem?_eq_some_iff.1 (getElem?_contents tables kind)
  rw [← List.flatten_cons, ← hget, ← List.drop_eq_getElem_cons hlt, ← List.flatten_append,
    List.take_append_drop, allBodies, List.flatMap_def]

/-- What the reader finds for a record. -/
theorem record?_sign {hash : Bytes → UInt32} {tables : Tables} {checksum : UInt32} {kind : Kind}
    {i : Nat} {record : Record} {body : Bytes} (hsize : laidOutSize tables < UInt32.size)
    (hrecord : (tables.records kind)[i]? = some record) (hbody : record.bytes = some body) :
    Index.record? ⟨version, checksum, UInt32.ofNat (laidOutSize tables), blocksOf tables⟩
        (sign hash (UInt32.ofNat (laidOutSize tables)) (unsigned tables)) kind i =
      some (Bytes.pad body) := by
  have hlaidOut := laidOutSize_eq tables
  have hfull : (sign hash (UInt32.ofNat (laidOutSize tables)) (unsigned tables)).size =
      laidOutSize tables := by rw [size_sign, size_unsigned]
  have hrecords := hasAt_sign hash (UInt32.ofNat (laidOutSize tables))
    (unsigned_hasAt_records tables) (Or.inr (Nat.le_add_right _ _))
  have hall := allBodies_eq tables kind
  have hroom := congrArg room hall
  rw [room_append, room_append] at hroom
  have hkind : (bodiesOf tables kind)[i]? = some body := by
    rw [bodiesOf, List.getElem?_map, Array.getElem?_toList, hrecord, Option.map_some, hbody]
    rfl
  have hblock := getElem?_blocksFrom (signatureLength + indexLength (allBodies tables).length)
    (getElem?_contents tables kind)
  rw [← blocksOf] at hblock
  -- where the records start does not matter from here on
  generalize signatureLength + indexLength (allBodies tables).length = start at *
  rw [hall, List.flatMap_append, List.flatMap_append] at hrecords
  have hmine := hrecords.right.left
  rw [length_padded] at hmine
  obtain ⟨e, he, hslice⟩ := slice?_entriesFrom (by omega) (by omega) hmine hkind
  rw [Index.record?, Index.entries, List.getD_eq_getElem?_getD, hblock, Option.getD_some, he]
  exact hslice

/-- The entries of all kinds, as they are listed kind after kind. -/
theorem flatMap_entries {index : Index} (h : index.blocks.length = Kind.count) :
    Kind.all.flatMap index.entries = index.blocks.flatten := by
  have hpositions : Kind.all.map Kind.position = List.range Kind.count := rfl
  have hentries : index.entries = (fun k => index.blocks.getD k []) ∘ Kind.position := rfl
  have hblocks : (List.range Kind.count).map (fun k => index.blocks.getD k []) = index.blocks := by
    apply List.ext_getElem
    · rw [List.length_map, List.length_range, h]
    · intro k _ hk
      rw [List.getElem_map, List.getElem_range, List.getD_eq_getElem _ _ hk]
  rw [List.flatMap_def, hentries, ← List.map_map, hpositions, hblocks]

/-! ## The round trip -/

/-- A bundle and its index give back some tables. -/
structure ReadsBack (tables : Tables) (bundle : Bytes) (index : Index) : Prop where
  version : index.version = 3
  length : index.length.toNat = bundle.size
  size : bundle.size = laidOutSize tables
  /-- Every kind has an entry for each record. -/
  count : ∀ kind, (index.entries kind).length = tables.count kind
  /-- The entries of all kinds fill the bytes behind the index blocks. -/
  tiles : Tiles (20 + 15 * 4 + 8 * recordCount tables) bundle.size (Kind.all.flatMap index.entries)
  /-- Every record is found, with the zero bytes that bring it to a multiple of four. -/
  record : ∀ kind i record body, (tables.records kind)[i]? = some record →
    record.bytes = some body → ∃ zeros, zeros ≤ 3 ∧ 4 ∣ body.size + zeros ∧
      index.record? bundle kind i = some (body ++ Array.replicate zeros 0)

/-- **A bundle reads back as its tables.** Filled tables whose bundle has a length of at most 32
    bits are assembled, and what comes out is read again; any other tables are refused. -/
theorem assembleWith_reads_back (hash : Bytes → UInt32) (tables : Tables) :
    (Filled tables → laidOutSize tables ≤ 2 ^ 32 - 1 →
      ∃ bundle index, assembleWith hash tables = .ok bundle ∧
        Index.parseWith hash bundle = .ok index ∧ ReadsBack tables bundle index) ∧
    (¬Filled tables ∨ 2 ^ 32 - 1 < laidOutSize tables →
      ∃ e, assembleWith hash tables = .error e) := by
  constructor
  · intro hfilled hle
    have hsize : laidOutSize tables < UInt32.size := by
      rw [show UInt32.size = 2 ^ 32 from rfl]
      omega
    obtain ⟨checksum, hparse⟩ := parseWith_sign hash hsize
    refine ⟨_, _, assembleWith_eq_ok.2 ⟨hfilled, hsize, rfl⟩, hparse, rfl, ?_, ?_, ?_, ?_, ?_⟩
    · rw [size_sign, size_unsigned]
      exact UInt32.toNat_ofNat_of_lt' hsize
    · rw [size_sign, size_unsigned]
    · intro kind
      have hblock := getElem?_blocksFrom (signatureLength + indexLength (allBodies tables).length)
        (getElem?_contents tables kind)
      rw [Index.entries, List.getD_eq_getElem?_getD, blocksOf, hblock, Option.getD_some,
        length_entriesFrom, length_bodiesOf]
    · have hlaidOut := laidOutSize_eq tables
      have htiles := tiles_entriesFrom (signatureLength + indexLength (allBodies tables).length)
        (allBodies tables) (by rwa [← hlaidOut])
      rw [flatMap_entries (length_blocksOf tables), flatten_blocksOf, size_sign, size_unsigned]
      rw [← hlaidOut] at htiles
      have hstart : 20 + 15 * 4 + 8 * recordCount tables =
          signatureLength + indexLength (allBodies tables).length := by
        simp only [length_allBodies, signatureLength, indexLength, Kind.count]
        omega
      rwa [hstart]
    · intro kind i record body hrecord hbody
      have hpadded := le_paddedLength body.size
      have hlt := paddedLength_lt body.size
      refine ⟨paddedLength body.size - body.size, by omega, ?_, record?_sign hsize hrecord hbody⟩
      rw [Nat.add_sub_cancel' hpadded]
      exact four_dvd_paddedLength body.size
  · intro hbad
    cases hassembled : assembleWith hash tables with
    | error e => exact ⟨e, rfl⟩
    | ok bundle =>
      obtain ⟨hfilled, hsize, -⟩ := assembleWith_eq_ok.1 hassembled
      rw [show UInt32.size = 2 ^ 32 from rfl] at hsize
      rcases hbad with hunfilled | hlong
      · exact absurd hfilled hunfilled
      · omega

/-- A map without bytes and a text of three, which needs one more. -/
def twoRecords : Tables :=
  (Tables.empty.add .maps ⟨"town", some #[]⟩).add .strings ⟨"hi", some "hi\x00".toUTF8.data⟩

theorem twoRecords_reads_back :
    Filled twoRecords ∧ laidOutSize twoRecords = 100 ∧
      ¬Filled (twoRecords.add .maps ⟨"cave", none⟩) ∧
      (∃ bundle index, assemble twoRecords = .ok bundle ∧ Index.parse bundle = .ok index ∧
        ReadsBack twoRecords bundle index) ∧
      ∃ e, assemble (twoRecords.add .maps ⟨"cave", none⟩) = .error e := by
  have hfilled : Filled twoRecords := by decide +kernel
  have hsize : laidOutSize twoRecords = 100 := by decide +kernel
  have hunfilled : ¬Filled (twoRecords.add .maps ⟨"cave", none⟩) := by decide +kernel
  refine ⟨hfilled, hsize, hunfilled, ?_, ?_⟩
  · exact (assembleWith_reads_back Crc32.checksum twoRecords).1 hfilled (by rw [hsize]; decide)
  · exact (assembleWith_reads_back Crc32.checksum _).2 (Or.inl hunfilled)

/-- The bundle of these two records. -/
def twoRecordsBundle : Bytes :=
  sign Crc32.checksum (UInt32.ofNat (laidOutSize twoRecords)) (unsigned twoRecords)

theorem laidOutSize_twoRecords_lt : laidOutSize twoRecords < UInt32.size := by decide +kernel

theorem assemble_twoRecords : assemble twoRecords = .ok twoRecordsBundle :=
  assembleWith_eq_ok.2 ⟨by decide +kernel, laidOutSize_twoRecords_lt, rfl⟩

theorem exists_parse_twoRecordsBundle : ∃ index, Index.parse twoRecordsBundle = .ok index :=
  (parseWith_sign Crc32.checksum laidOutSize_twoRecords_lt).imp' _ fun _ h => h

end GameBundle.Bundle
