import GameBundle.Build.Entities
import GameBundle.Proofs.Build.Slots
import GameBundle.Proofs.Properties
import GameBundle.Script.Keys

set_option autoImplicit false

/-! # The fields of an entity record

Scripts reach into the record of an entity by the names of fields, and the record is written without
these names. `FieldsTold` says what is read under each of them. The record is refused exactly if one
of the numbers it would hold does not fit, or if there are too many entities.

Which numbers these are is a matter of the properties of the entity, of the types of the project and
of the tile alone: `HasNumber` and `DrawnAs` say so entry by entry. -/

namespace GameBundle

/-! ## Refusals -/

/-- The step is refused for a number that is too large, unless `fits`. Then what it gives
    satisfies `spec`. -/
def Checked {α : Type} (fits : Prop) (spec : α → Prop) (x : Except Failure α) : Prop :=
  (fits ∧ ∃ a, x = .ok a ∧ spec a) ∨
    (¬fits ∧ ∃ context value width, x = .error (.error (.fieldOverflow context value width)))

namespace Checked

variable {α β : Type} {fits fits' : Prop} {spec : α → Prop} {spec' : β → Prop}

/-- Each of two steps may be refused. -/
theorem bind {x : Except Failure α} {f : α → Except Failure β} (hx : Checked fits spec x)
    (hf : ∀ a, spec a → Checked fits' spec' (f a)) : Checked (fits ∧ fits') spec' (x >>= f) := by
  rcases hx with ⟨hfits, a, rfl, ha⟩ | ⟨hover, context, value, width, rfl⟩
  · rcases hf a ha with ⟨hfits', b, hb, hspec⟩ | ⟨hover, context, value, width, hb⟩
    · exact .inl ⟨⟨hfits, hfits'⟩, b, hb, hspec⟩
    · exact .inr ⟨fun h => hover h.2, context, value, width, hb⟩
  · exact .inr ⟨fun h => hover h.1, context, value, width, rfl⟩

/-- What follows may give a result always. -/
theorem andThen {x : Except Failure α} {f : α → Except Failure β} (hx : Checked fits spec x)
    (hf : ∀ a, spec a → ∃ b, f a = .ok b ∧ spec' b) : Checked fits spec' (x >>= f) := by
  rcases hx with ⟨hfits, a, rfl, ha⟩ | ⟨hover, context, value, width, rfl⟩
  · exact .inl ⟨hfits, hf a ha⟩
  · exact .inr ⟨hover, context, value, width, rfl⟩

theorem imp {spec' : α → Prop} {x : Except Failure α} (hx : Checked fits spec x)
    (hspec : ∀ a, spec a → spec' a) : Checked fits spec' x := by
  rcases hx with ⟨hfits, a, rfl, ha⟩ | hover
  · exact .inl ⟨hfits, a, rfl, hspec a ha⟩
  · exact .inr hover

end Checked

/-! ## Whole numbers -/

namespace Binary64.Whole

/-- A whole number between zero and a limit. -/
def FitsIn (w : Whole) (limit : Nat) : Prop := ∃ n : Nat, n ≤ limit ∧ w = .integer n

theorem within_eq_some {w : Whole} {limit n : Nat} :
    w.within limit = some n ↔ n ≤ limit ∧ w = .integer n := by
  cases w with
  | integer value =>
    simp only [within]
    split
    · next h =>
      simp only [Option.some.injEq, Whole.integer.injEq]
      omega
    · next h =>
      simp only [reduceCtorEq, Whole.integer.injEq, false_iff]
      omega
  | _ => simp [within]

theorem within_eq_none {w : Whole} {limit : Nat} : w.within limit = none ↔ ¬w.FitsIn limit := by
  rw [Option.eq_none_iff_forall_ne_some]
  simp only [ne_eq, within_eq_some, FitsIn, not_exists]

end Binary64.Whole

open Binary64 (trunc round)

theorem coordinate_checked (context : String) (value : Float) :
    Checked ((round value).FitsIn 0xffff) (fun n : UInt16 => round value = .integer n.toNat)
      (coordinate context value) := by
  unfold coordinate
  dsimp only
  split
  · next pixel hpixel =>
    obtain ⟨hle, hround⟩ := Binary64.Whole.within_eq_some.1 hpixel
    have hsame : (UInt16.ofNat pixel).toNat = pixel :=
      UInt16.toNat_ofNat_of_lt' (Nat.lt_succ_of_le hle)
    refine .inl ⟨⟨pixel, hle, hround⟩, _, rfl, ?_⟩
    dsimp only
    rw [hsame, hround]
  · next hnone =>
    exact .inr ⟨Binary64.Whole.within_eq_none.1 hnone, context, _, 2, rfl⟩

/-! ## The numbers of an entity -/

/-- A property is a number if its value is one. An integer counts as the double nearest to it. No
    text is a number, not even one that spells one. -/
inductive Properties.IsNumber (p : Properties) (key : String) : Float → Prop
  | integer (value : Int) (entry : (key, Json.number (.integer value)) ∈ p.entries) :
      IsNumber p key (Binary64.ofInt value)
  | real (value : Float) (entry : (key, Json.number (.real value)) ∈ p.entries) :
      IsNumber p key value

theorem Properties.float?_eq_some {p : Properties} {key : String} {x : Float} :
    p.float? key = some x ↔ p.IsNumber key x := by
  simp only [float?, bind, Option.bind_eq_some_iff]
  constructor
  · rintro ⟨value, hfind, hvalue⟩
    have hentry := Ordered.mem_entries hfind
    cases value with
    | number n =>
      cases n with
      | integer n =>
        obtain rfl := Option.some.inj hvalue
        exact .integer n hentry
      | real n =>
        obtain rfl := Option.some.inj hvalue
        exact .real n hentry
    | _ => cases hvalue
  · intro h
    cases h with
    | integer value hentry => exact ⟨_, Ordered.find?_of_mem hentry, rfl⟩
    | real _ hentry => exact ⟨_, Ordered.find?_of_mem hentry, rfl⟩

theorem Properties.float?_eq_none {p : Properties} {key : String} :
    p.float? key = none ↔ ∀ x, ¬p.IsNumber key x := by
  simp only [Option.eq_none_iff_forall_ne_some, ne_eq, float?_eq_some]

namespace Entity

variable {e : Entity} {types : Ordered EntityType} {keys : List String} {x y : Float}

/-- The number of an entity under some keys: that of the first one that is a number, and zero if
    none is. -/
inductive HasNumber (e : Entity) : List String → Float → Prop
  | none : HasNumber e [] (Float.ofBits 0)
  | first {key : String} {keys : List String} {x : Float} (number : e.properties.IsNumber key x) :
      HasNumber e (key :: keys) x
  | later {key : String} {keys : List String} {x : Float}
      (other : ∀ y, ¬e.properties.IsNumber key y) (rest : HasNumber e keys x) :
      HasNumber e (key :: keys) x

/-- The number, rounded or cut to a whole one. -/
def HasWhole (e : Entity) (whole : Float → Binary64.Whole) (keys : List String) (n : Nat) : Prop :=
  ∃ x, e.HasNumber keys x ∧ whole x = .integer n

theorem hasNumber_iff :
    e.HasNumber keys x ↔ (keys.findSome? e.properties.float?).getD (Float.ofBits 0) = x := by
  induction keys with
  | nil =>
    constructor
    · rintro ⟨⟩
      rfl
    · rintro rfl
      exact .none
  | cons key keys ih =>
    rw [List.findSome?_cons]
    cases hkey : e.properties.float? key with
    | some y =>
      have hnumber := Properties.float?_eq_some.1 hkey
      dsimp only [Option.getD_some]
      constructor
      · intro h
        cases h with
        | first number =>
          exact Option.some.inj (hkey.symm.trans (Properties.float?_eq_some.2 number))
        | later other _ => exact absurd hnumber (other y)
      · rintro rfl
        exact .first hnumber
    | none =>
      have hother := Properties.float?_eq_none.1 hkey
      dsimp only
      rw [← ih]
      constructor
      · intro h
        cases h with
        | first number => exact absurd number (hother x)
        | later _ rest => exact rest
      · exact .later hother

theorem HasNumber.unique (hx : e.HasNumber keys x) (hy : e.HasNumber keys y) : x = y :=
  (hasNumber_iff.1 hx).symm.trans (hasNumber_iff.1 hy)

/-- Whether the whole number fits is decided by the one number that there is. -/
theorem HasNumber.fitsIn_iff (h : e.HasNumber keys x) {whole : Float → Binary64.Whole}
    {limit : Nat} : (whole x).FitsIn limit ↔ ∃ n ≤ limit, e.HasWhole whole keys n := by
  constructor
  · rintro ⟨n, hle, hwhole⟩
    exact ⟨n, hle, x, h, hwhole⟩
  · rintro ⟨n, hle, y, hy, hwhole⟩
    exact ⟨n, hle, h.unique hy ▸ hwhole⟩

theorem position_checked (e : Entity) (axis : String) :
    Checked (∃ n ≤ 0xffff, e.HasWhole round [axis] n)
      (fun n : UInt16 => e.HasWhole round [axis] n.toNat) (e.position axis) := by
  have hnumber : e.HasNumber [axis] ((e.properties.float? axis).getD (Float.ofBits 0)) := by
    rw [hasNumber_iff, List.findSome?_singleton]
  rw [← hnumber.fitsIn_iff]
  exact (coordinate_checked _ _).imp fun n hround => ⟨_, hnumber, hround⟩

theorem byte_checked (e : Entity) (keys : List String) :
    Checked (∃ n ≤ 0xff, e.HasWhole trunc keys n)
      (fun b : UInt8 => e.HasWhole trunc keys b.toNat)
      (liftM (e.byte keys) : Except Failure UInt8) := by
  have hnumber : e.HasNumber keys (((keys.findSome? fun key =>
      (e.properties.float? key).map fun value => (key, value)).map Prod.snd).getD
        (Float.ofBits 0)) := by
    rw [hasNumber_iff, List.map_findSome?]
    congr 2
    funext key
    simp [Function.comp_def]
  rw [← hnumber.fitsIn_iff]
  unfold byte
  split
  · next hnone =>
    rw [hnone] at hnumber ⊢
    exact .inl ⟨⟨0, Nat.zero_le _, by decide +kernel⟩, 0, rfl, _, hnumber, by decide +kernel⟩
  · next key value hsome =>
    rw [hsome, Option.map_some, Option.getD_some] at hnumber ⊢
    dsimp only
    split
    · next n hn =>
      obtain ⟨hle, htrunc⟩ := Binary64.Whole.within_eq_some.1 hn
      have hsame : (UInt8.ofNat n).toNat = n := UInt8.toNat_ofNat_of_lt' (Nat.lt_succ_of_le hle)
      refine .inl ⟨⟨n, hle, htrunc⟩, _, rfl, _, hnumber, ?_⟩
      dsimp only
      rw [hsame, htrunc]
    · next hnone =>
      exact .inr ⟨Binary64.Whole.within_eq_none.1 hnone, _, _, _, rfl⟩

/-! ## What an entity is drawn with -/

/-- The entity names this type. -/
def IsOfType (e : Entity) (types : Ordered EntityType) (type : EntityType) : Prop :=
  ∃ name, name ≠ "" ∧ ("type", Json.string name) ∈ e.properties.entries ∧
    (name, type) ∈ types.entries

/-- The tile of the entity has this animation. -/
def IsAnimated (e : Entity) (animation : UInt16) : Prop :=
  ∃ tile, e.tile.tileset.tiles.lookup e.tile.tileIndex = some tile ∧
    tile.animation = some animation

/-- The number of the kind of thing an entity is drawn with, and the two numbers it is known by: of
    the type that it names, else of its animation, else of its tile. -/
inductive DrawnAs (e : Entity) (types : Ordered EntityType) : Nat → Nat → Nat → Prop
  | type {type : EntityType} (typed : e.IsOfType types type) :
      DrawnAs e types 2 type.index.toNat 0
  | animation {animation : UInt16} (untyped : ∀ type, ¬e.IsOfType types type)
      (animated : e.IsAnimated animation) : DrawnAs e types 1 animation.toNat 0
  | tile (untyped : ∀ type, ¬e.IsOfType types type)
      (still : ∀ animation, ¬e.IsAnimated animation) :
      DrawnAs e types 0 e.tile.tileset.index.toNat e.tile.tileIndex.toNat

theorem isOfType_iff {type : EntityType} :
    e.IsOfType types type ↔ (e.kind? >>= types.find?) = some type := by
  simp only [kind?, bind, Option.bind_eq_some_iff, Properties.text?_eq_some]
  constructor
  · rintro ⟨name, hname, hentry, htype⟩
    exact ⟨name, ⟨Ordered.find?_of_mem hentry, hname⟩, Ordered.find?_of_mem htype⟩
  · rintro ⟨name, ⟨hfind, hname⟩, htype⟩
    exact ⟨name, hname, Ordered.mem_entries hfind, Ordered.mem_entries htype⟩

theorem isAnimated_iff {animation : UInt16} :
    e.IsAnimated animation ↔ e.tile.tileset.animation? e.tile.tileIndex = some animation := by
  simp only [IsAnimated, Tileset.animation?, Tileset.tile?, bind, Option.bind_eq_some_iff]

/-- Only the number of a plain tile may be too large for a record. -/
theorem look_checked (e : Entity) (types : Ordered EntityType) :
    Checked (∃ code primary secondary, secondary ≤ 0xffff ∧ e.DrawnAs types code primary secondary)
      (fun l : Look => e.DrawnAs types l.code.1.toNat l.code.2.1.toNat l.code.2.2.toNat)
      (liftM (e.look types) : Except Failure Look) := by
  unfold look
  cases htype : e.kind? >>= types.find? with
  | some type =>
    have hdrawn := DrawnAs.type (isOfType_iff.2 htype)
    exact .inl ⟨⟨_, _, _, Nat.zero_le _, hdrawn⟩, .type type.index _, rfl, hdrawn⟩
  | none =>
    have huntyped : ∀ type, ¬e.IsOfType types type := by simp [isOfType_iff, htype]
    cases hanimation : e.tile.tileset.animation? e.tile.tileIndex with
    | some animation =>
      have hdrawn := DrawnAs.animation huntyped (isAnimated_iff.2 hanimation)
      exact .inl ⟨⟨_, _, _, Nat.zero_le _, hdrawn⟩, .animation animation, rfl, hdrawn⟩
    | none =>
      have hstill : ∀ animation, ¬e.IsAnimated animation := by simp [isAnimated_iff, hanimation]
      have hdrawn := DrawnAs.tile huntyped hstill
      dsimp only
      split
      · next hlt =>
        refine .inl ⟨⟨_, _, _, Nat.le_of_lt_succ hlt, hdrawn⟩, _, rfl, ?_⟩
        dsimp only [Look.code]
        rwa [UInt16.toNat_ofNat_of_lt' hlt]
      · next hge =>
        refine .inr ⟨?_, _, _, _, rfl⟩
        rintro ⟨code, primary, secondary, hle, hother⟩
        cases hother with
        | type typed => exact huntyped _ typed
        | animation _ animated => exact hstill _ animated
        | tile => exact hge (Nat.lt_succ_of_le hle)

end Entity

/-! ## Fields by name -/

/-- The number of one or two bytes under a field that scripts know. -/
def Bytes.field? (bytes : Bytes) (name : String) (width : Nat) : Option Nat :=
  Keys.field.code? name >>= fun offset => bytes.slot? offset.toNat width

/-- What is read under a field is a number of this kind. -/
def Bytes.Tells (bytes : Bytes) (name : String) (width : Nat) (kind : Nat → Prop) : Prop :=
  ∃ n, kind n ∧ bytes.field? name width = some n

section Fields

variable {bytes new : Bytes} {name : String} {width n : Nat} {kind : Nat → Prop}

theorem Bytes.field?_of_word (offset : UInt8) {v : UInt16}
    (hname : Keys.field.code? name = some offset)
    (hat : bytes.HasAt offset.toNat (Field.word v).written) :
    bytes.field? name 2 = some v.toNat := by
  rw [Bytes.field?, hname]
  exact congrArg (Option.map UInt16.toNat) (Bytes.HasAt.word? hat)

theorem Bytes.field?_of_byte (offset : UInt8) {v : UInt8}
    (hname : Keys.field.code? name = some offset)
    (hat : bytes.HasAt offset.toNat (Field.byte v).written) :
    bytes.field? name 1 = some v.toNat := by
  rw [Bytes.field?, hname]
  exact congrArg (Option.map UInt8.toNat) (hat 0 (Nat.lt_succ_self 0))

/-- Where bytes agree, so do the slots that are read there. -/
theorem Bytes.AgreeOutside.slot? {first last offset value : Nat}
    (h : Bytes.AgreeOutside first last bytes new)
    (houtside : offset + width ≤ first ∨ last < offset)
    (hslot : bytes.slot? offset width = some value) : new.slot? offset width = some value :=
  Bytes.slot?_congr (fun i hi => h.2 _ (by omega)) hslot

theorem Bytes.AgreeOutside.field? {first last : Nat} (h : Bytes.AgreeOutside first last bytes new)
    (offset : UInt8) (hname : Keys.field.code? name = some offset)
    (houtside : offset.toNat + width ≤ first ∨ last < offset.toNat)
    (hfield : bytes.field? name width = some n) : new.field? name width = some n := by
  rw [Bytes.field?, hname] at hfield ⊢
  exact h.slot? houtside hfield

theorem Bytes.AgreeOutside.tells {first last : Nat} (h : Bytes.AgreeOutside first last bytes new)
    (offset : UInt8) (hname : Keys.field.code? name = some offset)
    (houtside : offset.toNat + width ≤ first ∨ last < offset.toNat)
    (htells : bytes.Tells name width kind) : new.Tells name width kind := by
  obtain ⟨n, hn, hfield⟩ := htells
  exact ⟨n, hn, h.field? offset hname houtside hfield⟩

end Fields

/-- What is read under the fields of an entity. A path takes the place of the first two states, low
    byte first. -/
structure FieldsTold (e : Entity) (types : Ordered EntityType) (path : Option UInt16)
    (bytes : Bytes) : Prop where
  size : bytes.size = 32
  x : bytes.Tells "x" 2 (e.HasWhole round ["x"])
  y : bytes.Tells "y" 2 (e.HasWhole round ["y"])
  scripts : bytes.field? "interact_script_id" 2 = some 0 ∧
    bytes.field? "tick_script_id" 2 = some 0
  identity : ∃ code primary secondary, e.DrawnAs types code primary secondary ∧
    bytes.field? "primary_id_type" 1 = some code ∧ bytes.field? "primary_id" 2 = some primary ∧
      bytes.field? "secondary_id" 2 = some secondary
  animation : bytes.Tells "current_animation" 1
    (e.HasWhole trunc ["current_animation", "currentAnimation"])
  frame : bytes.Tells "current_frame" 1 (e.HasWhole trunc ["current_frame"])
  states : match path with
    | none => bytes.Tells "hackable_state_a" 1 (e.HasWhole trunc ["hackable_state_a"]) ∧
        bytes.Tells "hackable_state_b" 1 (e.HasWhole trunc ["hackable_state_b"])
    | some path => bytes.field? "hackable_state_a" 1 = some (path.toNat % 256) ∧
        bytes.field? "hackable_state_b" 1 = some (path.toNat / 256)
  stateC : bytes.Tells "hackable_state_c" 1 (e.HasWhole trunc ["hackable_state_c"])
  stateD : bytes.Tells "hackable_state_d" 1 (e.HasWhole trunc ["hackable_state_d"])

/-- The keys of the numbers that take one byte each. -/
def Entity.byteKeys : List (List String) :=
  [["current_animation", "currentAnimation"], ["current_frame"], ["hackable_state_a"],
    ["hackable_state_b"], ["hackable_state_c"], ["hackable_state_d"]]

/-- All numbers of an entity fit its record, those included that a path replaces. -/
structure Entity.Fits (e : Entity) (types : Ordered EntityType) : Prop where
  x : ∃ n ≤ 0xffff, e.HasWhole round ["x"] n
  y : ∃ n ≤ 0xffff, e.HasWhole round ["y"] n
  identity : ∃ code primary secondary, secondary ≤ 0xffff ∧ e.DrawnAs types code primary secondary
  bytes : ∀ keys ∈ byteKeys, ∃ n ≤ 0xff, e.HasWhole trunc keys n

namespace Entity

variable {e : Entity} {types : Ordered EntityType}

theorem fits_iff : e.Fits types ↔
    (∃ n ≤ 0xffff, e.HasWhole round ["x"] n) ∧ (∃ n ≤ 0xffff, e.HasWhole round ["y"] n) ∧
      (∃ code primary secondary, secondary ≤ 0xffff ∧ e.DrawnAs types code primary secondary) ∧
      (∃ n ≤ 0xff, e.HasWhole trunc ["current_animation", "currentAnimation"] n) ∧
      (∃ n ≤ 0xff, e.HasWhole trunc ["current_frame"] n) ∧
      (∃ n ≤ 0xff, e.HasWhole trunc ["hackable_state_a"] n) ∧
      (∃ n ≤ 0xff, e.HasWhole trunc ["hackable_state_b"] n) ∧
      (∃ n ≤ 0xff, e.HasWhole trunc ["hackable_state_c"] n) ∧
      ∃ n ≤ 0xff, e.HasWhole trunc ["hackable_state_d"] n := by
  constructor
  · intro h
    have hbytes := h.bytes
    simp only [byteKeys, List.forall_mem_cons] at hbytes
    obtain ⟨h₁, h₂, h₃, h₄, h₅, h₆, -⟩ := hbytes
    exact ⟨h.x, h.y, h.identity, h₁, h₂, h₃, h₄, h₅, h₆⟩
  · rintro ⟨hx, hy, hidentity, h₁, h₂, h₃, h₄, h₅, h₆⟩
    refine ⟨hx, hy, hidentity, ?_⟩
    simp only [byteKeys, List.forall_mem_cons]
    exact ⟨h₁, h₂, h₃, h₄, h₅, h₆, nofun⟩

/-- The fields of an entity record, one after the other. -/
def layout (label : String) (x y primary secondary : UInt16)
    (code animation frame flags stateA stateB stateC stateD : UInt8) : List Field :=
  [.chars label 12, .word x, .word y, .word 0, .word 0, .word primary, .word secondary, .byte code,
    .byte animation, .byte frame, .byte flags, .byte stateA, .byte stateB, .byte stateC,
    .byte stateD]

/-- They fill the record. -/
theorem encode_layout (label : String) (x y primary secondary : UInt16)
    (code animation frame flags stateA stateB stateC stateD : UInt8) :
    ∃ bytes, Record.encode 32 (layout label x y primary secondary code animation frame flags stateA
      stateB stateC stateD) = .ok bytes := by
  have hwidth : widthOf (layout label x y primary secondary code animation frame flags stateA
      stateB stateC stateD) = 32 := by
    simp only [layout, widthOf_cons, widthOf_nil, Field.width]
  have hfits : ∀ field ∈ layout label x y primary secondary code animation frame flags stateA
      stateB stateC stateD, field.Fits := by
    simp [layout, Field.Fits]
  exact ⟨_, Record.encode_full hwidth (by decide) (by decide) hfits⟩

/-- The record of an entity before a path is put in. -/
theorem fieldsTold {bytes : Bytes} {label : String} {x y primary secondary : UInt16}
    {code animation frame flags stateA stateB stateC stateD : UInt8}
    (h : Record.encode 32 (layout label x y primary secondary code animation frame flags stateA
      stateB stateC stateD) = .ok bytes)
    (hx : e.HasWhole round ["x"] x.toNat) (hy : e.HasWhole round ["y"] y.toNat)
    (hidentity : e.DrawnAs types code.toNat primary.toNat secondary.toNat)
    (hanimation : e.HasWhole trunc ["current_animation", "currentAnimation"] animation.toNat)
    (hframe : e.HasWhole trunc ["current_frame"] frame.toNat)
    (hA : e.HasWhole trunc ["hackable_state_a"] stateA.toNat)
    (hB : e.HasWhole trunc ["hackable_state_b"] stateB.toNat)
    (hC : e.HasWhole trunc ["hackable_state_c"] stateC.toNat)
    (hD : e.HasWhole trunc ["hackable_state_d"] stateD.toNat) :
    FieldsTold e types none bytes := by
  obtain ⟨-, -, hxAt, -, hyAt, -, hinteract, -, htick, -, hprimary, -, hsecondary, -, hcode, -,
    hanimationAt, -, hframeAt, -, -, -, hstateA, -, hstateB, -, hstateC, -, hstateD, -⟩ :=
      Record.hasFields_of_encode h
  exact {
    size := Record.size_of_encode h
    x := ⟨_, hx, Bytes.field?_of_word 12 rfl hxAt⟩
    y := ⟨_, hy, Bytes.field?_of_word 14 rfl hyAt⟩
    scripts :=
      ⟨Bytes.field?_of_word 16 rfl hinteract, Bytes.field?_of_word 18 rfl htick⟩
    identity := ⟨_, _, _, hidentity, Bytes.field?_of_byte 24 rfl hcode,
      Bytes.field?_of_word 20 rfl hprimary, Bytes.field?_of_word 22 rfl hsecondary⟩
    animation := ⟨_, hanimation, Bytes.field?_of_byte 25 rfl hanimationAt⟩
    frame := ⟨_, hframe, Bytes.field?_of_byte 26 rfl hframeAt⟩
    states := ⟨⟨_, hA, Bytes.field?_of_byte 28 rfl hstateA⟩,
      ⟨_, hB, Bytes.field?_of_byte 29 rfl hstateB⟩⟩
    stateC := ⟨_, hC, Bytes.field?_of_byte 30 rfl hstateC⟩
    stateD := ⟨_, hD, Bytes.field?_of_byte 31 rfl hstateD⟩ }

/-- A path takes the place of two states and leaves all other fields alone. -/
theorem fieldsTold_patch {bytes new : Bytes} {path : UInt16}
    (h : FieldsTold e types none bytes) (hpatch : bytes.patchWord pathOffset path = .ok new) :
    FieldsTold e types (some path) new := by
  obtain ⟨hfit, hnew⟩ := patchWord_eq_ok.1 hpatch
  have hagree : Bytes.AgreeOutside 28 29 bytes new :=
    agreeOutside_patchWord (Nat.le_refl _) (Nat.le_refl _) hpatch
  have hpath : new.HasAt pathOffset (ByteOrder.data.word path) := by
    rw [hnew]
    exact Bytes.hasAt_overwrite (by rwa [ByteOrder.length_word])
  obtain ⟨code, primary, secondary, hdrawn, hcode, hprimary, hsecondary⟩ := h.identity
  exact {
    size := hagree.1.trans h.size
    x := hagree.tells 12 rfl (by decide) h.x
    y := hagree.tells 14 rfl (by decide) h.y
    scripts := ⟨hagree.field? 16 rfl (by decide) h.scripts.1,
      hagree.field? 18 rfl (by decide) h.scripts.2⟩
    identity := ⟨code, primary, secondary, hdrawn, hagree.field? 24 rfl (by decide) hcode,
      hagree.field? 20 rfl (by decide) hprimary, hagree.field? 22 rfl (by decide) hsecondary⟩
    animation := hagree.tells 25 rfl (by decide) h.animation
    frame := hagree.tells 26 rfl (by decide) h.frame
    states := by
      have hlow : new[28]? = some path.toUInt8 := hpath 0 Nat.zero_lt_two
      have hhigh : new[29]? = some (path >>> 8).toUInt8 := hpath 1 Nat.one_lt_two
      have hlt := path.toNat_lt
      constructor
      · change (new[28]?).map UInt8.toNat = _
        rw [hlow, Option.map_some, UInt16.toNat_toUInt8]
      · change (new[29]?).map UInt8.toNat = _
        rw [hhigh, Option.map_some, UInt16.toNat_toUInt8, UInt16.toNat_shiftRight,
          show (8 : UInt16).toNat % 16 = 8 from rfl, Nat.shiftRight_eq_div_pow,
          Nat.mod_eq_of_lt (by omega)]
    stateC := hagree.tells 30 rfl (by decide) h.stateC
    stateD := hagree.tells 31 rfl (by decide) h.stateD }

/-- The numbers are checked one after the other, and only then is the record written. -/
theorem encode_checked (e : Entity) (types : Ordered EntityType) (path : Option UInt16) :
    Checked (e.Fits types) (FieldsTold e types path) (e.encode types path) := by
  rw [fits_iff]
  refine .bind (position_checked e "x") fun x hx => ?_
  refine .bind (position_checked e "y") fun y hy => ?_
  refine .bind (look_checked e types) fun l hl => ?_
  refine .bind (byte_checked e _) fun animation hanimation => ?_
  refine .bind (byte_checked e _) fun frame hframe => ?_
  refine .bind (byte_checked e _) fun stateA hA => ?_
  refine .bind (byte_checked e _) fun stateB hB => ?_
  refine .bind (byte_checked e _) fun stateC hC => ?_
  refine .andThen (byte_checked e _) fun stateD hD => ?_
  obtain ⟨bytes, hbytes⟩ := encode_layout e.label x y l.code.2.1 l.code.2.2 l.code.1 animation frame
    (e.flags l) stateA stateB stateC stateD
  have htold := fieldsTold hbytes hx hy hl hanimation hframe hA hB hC hD
  cases path with
  | none => exact ⟨_, bind_eq_ok.2 ⟨_, hbytes, rfl⟩, htold⟩
  | some path =>
    have hpatch : bytes.patchWord pathOffset path =
        .ok (bytes.overwrite pathOffset (ByteOrder.data.word path)) :=
      patchWord_eq_ok.2 ⟨by rw [htold.size]; decide, rfl⟩
    exact ⟨_, bind_eq_ok.2 ⟨_, hbytes, hpatch⟩, fieldsTold_patch htold hpatch⟩

end Entity

/-! ## Adding an entity -/

/-- A table that is full stays as it is. -/
theorem Tables.fails_push {kind : Kind} {name : String} {bytes : Bytes} {t : Tables}
    (h : ¬t.count kind < UInt16.size) :
    Fails (push kind name bytes) t
      (.error (.fieldOverflow s!"{kind.label} table index" (t.count kind) 2)) t := by
  have hnext : Fails (nextIndex kind) t
      (.error (.fieldOverflow s!"{kind.label} table index" (t.count kind) 2)) t := by
    rw [nextIndex, fails_bind]
    refine .inr ⟨t, t, yields_get.2 ⟨rfl, rfl⟩, ?_⟩
    rw [if_neg h]
    exact fails_reject.2 ⟨rfl, rfl⟩
  rw [push, fails_bind]
  exact .inl hnext

/-- **The record of an entity is told by the fields that scripts know**, and it is added unless a
    number does not fit or there are too many entities already. Then nothing is added. -/
theorem addEntity_fields (e : Entity) (path : Option UInt16) (p : Project) :
    (e.Fits p.entityTypes ∧ p.tables.count .entities ≤ 0xffff ∧
      ∃ index bytes, index.toNat = p.tables.count .entities ∧
        FieldsTold e p.entityTypes path bytes ∧
        Yields (addEntity e path) p index
          { p with tables := p.tables.add .entities ⟨e.label, some bytes⟩ }) ∨
    (¬(e.Fits p.entityTypes ∧ p.tables.count .entities ≤ 0xffff) ∧
      ∃ context value width,
        Fails (addEntity e path) p (.error (.fieldOverflow context value width)) p) := by
  rcases e.encode_checked p.entityTypes path with ⟨hfits, bytes, hbytes, htold⟩ |
    ⟨hover, context, value, width, herror⟩
  · by_cases hroom : p.tables.count .entities ≤ 0xffff
    · have hlt := Nat.lt_succ_of_le hroom
      refine .inl ⟨hfits, hroom, _, bytes, UInt16.toNat_ofNat_of_lt' hlt, htold, ?_⟩
      rw [addEntity, yields_bind]
      refine ⟨p, p, yields_get.2 ⟨rfl, rfl⟩, yields_bind.2 ⟨bytes, p, ?_, ?_⟩⟩
      · exact yields_except.2 ⟨hbytes, rfl⟩
      · exact yields_onTables.2 ⟨_, Tables.yields_push.2 ⟨hlt, rfl, rfl⟩, rfl⟩
    · have hfull := mt Nat.le_of_lt_succ hroom
      refine .inr ⟨fun h => hroom h.2, s!"{Kind.label .entities} table index",
        p.tables.count .entities, 2, ?_⟩
      rw [addEntity, fails_bind]
      refine .inr ⟨p, p, yields_get.2 ⟨rfl, rfl⟩, fails_bind.2 (.inr ⟨bytes, p, ?_, ?_⟩)⟩
      · exact yields_except.2 ⟨hbytes, rfl⟩
      · exact fails_onTables.2 ⟨_, Tables.fails_push hfull, rfl⟩
  · refine .inr ⟨fun h => hover h.1, context, value, width, ?_⟩
    rw [addEntity, fails_bind]
    exact .inr ⟨p, p, yields_get.2 ⟨rfl, rfl⟩, fails_bind.2 (.inl (fails_except.2 ⟨herror, rfl⟩))⟩

/-- A tileset whose tile number one is animated. -/
def bakery : Tileset where
  name := "bakery"
  index := 4
  tileCount := 300
  tiles := [(1, { animation := some 9 })]

/-- An oven that stands between two pixels. The text under the first key of its animation is no
    number, and the number under the second key is not whole. It has no fourth state. -/
def oven : Entity where
  properties := .ofList [("name", .string "oven"), ("type", .string "oven"),
    ("x", .number (.real (Binary64.nearest 25 (-1)))), ("y", .ofInt 7),
    ("current_animation", .string "3"),
    ("currentAnimation", .number (.real (Binary64.nearest 11 (-2)))), ("current_frame", .ofInt 5),
    ("hackable_state_a", .ofInt 1), ("hackable_state_b", .ofInt 2),
    ("hackable_state_c", .ofInt 200)]
  tile := ⟨bakery, 1, false, false, false⟩

/-- Its frame takes more than a byte. -/
def burntOven : Entity :=
  { oven with properties := oven.properties.put "current_frame" (.ofInt 256) }

/-- A project in which ovens are a type of their own. -/
def kitchen : Project := { entityTypes := .ofList [("oven", ⟨6, ∅, default⟩)] }

/-- What the first entity record holds behind its label when an entity has been added. -/
def firstEntity (e : Entity) (path : Option UInt16) (p : Project) : Option (List UInt8) :=
  (((outcome (addEntity e path) p).2.tables.records .entities)[0]? >>= Record.bytes).map
    (·.toList.drop 12)

/-- The entity becomes the first of the project. Its record tells its fields, and behind its label
    it holds these bytes. -/
def BecomesFirst (e : Entity) (path : Option UInt16) (p : Project) (held : List UInt8) : Prop :=
  ∃ index bytes q, Yields (addEntity e path) p index q ∧
    (q.tables.records .entities)[0]? = some ⟨e.label, some bytes⟩ ∧
    FieldsTold e p.entityTypes path bytes ∧ bytes.toList.drop 12 = held

/-- An oven is told as its type, with an animation and a path where there is no such type, and as a
    plain tile. A burnt oven is not added. -/
theorem oven_fields :
    BecomesFirst oven none kitchen
      [13, 0, 7, 0, 0, 0, 0, 0, 6, 0, 0, 0, 2, 2, 5, 0, 1, 2, 200, 0] ∧
    BecomesFirst oven (some 0x0403) {}
      [13, 0, 7, 0, 0, 0, 0, 0, 9, 0, 0, 0, 1, 2, 5, 0, 3, 4, 200, 0] ∧
    BecomesFirst { oven with tile := { oven.tile with tileIndex := 258 } } none {}
      [13, 0, 7, 0, 0, 0, 0, 0, 4, 0, 2, 1, 0, 2, 5, 0, 1, 2, 200, 0] ∧
    Fails (addEntity burntOven none) kitchen
      (.error (.fieldOverflow "entity \"oven\" current_frame" 256 1)) kitchen := by
  have hbecomes : ∀ e path p held, p.tables.count .entities = 0 →
      firstEntity e path p = some held → BecomesFirst e path p held := by
    intro e path p held hnone hheld
    obtain ⟨-, -, index, bytes, -, htold, hyields⟩ | ⟨-, context, value, width, hfails⟩ :=
      addEntity_fields e path p
    · have hfirst : ((p.tables.add .entities ⟨e.label, some bytes⟩).records .entities)[0]? =
          some ⟨e.label, some bytes⟩ := by
        rw [Tables.getElem?_records_add, if_pos ⟨rfl, hnone.symm⟩]
      rw [firstEntity, hyields, hfirst] at hheld
      exact ⟨index, bytes, _, hyields, hfirst, htold, Option.some.inj hheld⟩
    · rw [firstEntity, hfails, Array.getElem?_eq_none (Nat.le_of_eq hnone)] at hheld
      cases hheld
  refine ⟨hbecomes _ _ _ _ rfl (by decide +kernel), hbecomes _ _ _ _ rfl (by decide +kernel),
    hbecomes _ _ _ _ rfl (by decide +kernel), ?_⟩
  have hrefused : (outcome (addEntity burntOven none) kitchen).1 =
      .error (.error (.fieldOverflow "entity \"oven\" current_frame" 256 1)) := by decide +kernel
  obtain ⟨-, -, index, bytes, -, -, hyields⟩ | ⟨-, context, value, width, hfails⟩ :=
    addEntity_fields burntOven none kitchen
  · rw [hyields] at hrefused
    cases hrefused
  · rw [hfails] at hrefused
    exact hfails.trans (congrArg (·, kitchen) hrefused)

end GameBundle
