import GameBundle.Color
import Mathlib.Data.List.Forall2
import Mathlib.Data.List.TakeWhile

set_option autoImplicit false

/-! # Two ways to write a colour

Scripts write alpha behind the other channels, the map editor in front of them. Both ways accept the
same texts, which `Written` describes: six or eight hexadecimal digits behind `#`, with blanks around
them. `SpelledBy` says which bytes the digits stand for, so that the two ways can be compared without
looking at how digits are read. -/

namespace GameBundle

/-! ## Blanks around a text -/

namespace Text

variable {before core after : List Char}

theorem dropWhile_append_of_blank (hbefore : ∀ c ∈ before, isBlank c = true) (rest : List Char) :
    (before ++ rest).dropWhile isBlank = rest.dropWhile isBlank := by
  induction before with
  | nil => rfl
  | cons c before ih =>
    rw [List.forall_mem_cons] at hbefore
    rw [List.cons_append, List.dropWhile_cons_of_pos hbefore.1, ih hbefore.2]

/-- Blanks around a text that has none at its ends are taken away. -/
theorem trim_surrounded (hbefore : ∀ c ∈ before, isBlank c = true)
    (hafter : ∀ c ∈ after, isBlank c = true) (first : ∀ c ∈ core.head?, isBlank c = false)
    (last : ∀ c ∈ core.getLast?, isBlank c = false) (hcore : core ≠ []) :
    trim (before ++ (core ++ after)) = core := by
  obtain ⟨c, rest, rfl⟩ := List.exists_cons_of_ne_nil hcore
  have hfront : (c :: rest ++ after).dropWhile isBlank = c :: rest ++ after := by
    rw [List.cons_append, List.dropWhile_cons_of_neg]
    simp [first c rfl]
  have hback : ∀ c ∈ after.reverse, isBlank c = true :=
    fun c hc => hafter c (List.mem_reverse.1 hc)
  have hself := trim_eq_self first last
  unfold trim at hself ⊢
  rw [dropWhile_append_of_blank hbefore, hfront, List.reverse_append,
    dropWhile_append_of_blank hback]
  rwa [List.dropWhile_cons_of_neg (by simp [first c rfl])] at hself

/-- Only blanks are taken away. -/
theorem exists_surrounded (text : List Char) :
    ∃ before after, (∀ c ∈ before, isBlank c = true) ∧ (∀ c ∈ after, isBlank c = true) ∧
      text = before ++ (trim text ++ after) := by
  refine ⟨text.takeWhile isBlank,
    ((text.dropWhile isBlank).reverse.takeWhile isBlank).reverse,
    fun c hc => List.mem_takeWhile_imp hc,
    fun c hc => List.mem_takeWhile_imp (List.mem_reverse.1 hc), ?_⟩
  rw [trim, ← List.reverse_append, List.takeWhile_append_dropWhile, List.reverse_reverse,
    List.takeWhile_append_dropWhile]

end Text

namespace Color

/-! ## Digits -/

/-- The hexadecimal digits by their values, in small letters. -/
def smallDigits : List Char := "0123456789abcdef".toList

/-- The hexadecimal digits by their values, in capital letters. -/
def capitalDigits : List Char := "0123456789ABCDEF".toList

/-- The digit has this value. -/
def DigitOf (value : Nat) (c : Char) : Prop :=
  smallDigits[value]? = some c ∨ capitalDigits[value]? = some c

/-- A hexadecimal digit of either case. -/
def HexDigit (c : Char) : Prop := c ∈ smallDigits ∨ c ∈ capitalDigits

instance (c : Char) : Decidable (HexDigit c) := inferInstanceAs (Decidable (_ ∨ _))

theorem hexDigit_iff {c : Char} : HexDigit c ↔ ∃ value, DigitOf value c := by
  simp only [HexDigit, DigitOf, List.mem_iff_getElem?, exists_or]

theorem DigitOf.lt {value : Nat} {c : Char} (h : DigitOf value c) : value < 16 := by
  obtain h | h := h <;> exact (List.getElem?_eq_some_iff.1 h).1

theorem hexDigit?_eq_some {c : Char} {value : Nat} :
    Json.hexDigit? c = some value ↔ DigitOf value c := by
  constructor
  · -- a digit is one of the first characters, and there all of them can be tried
    have hall : ∀ n : Fin 128, ∀ value ∈ Json.hexDigit? (Char.ofNat n),
        smallDigits[value]? = some (Char.ofNat n) ∨ capitalDigits[value]? = some (Char.ofNat n) := by
      decide +kernel
    intro h
    have hsmall : c.toNat < 128 := by
      have hle : ∀ last : Char, last.toNat < 128 → c ≤ last → c.toNat < 128 :=
        fun last hlast hc => Nat.lt_of_le_of_lt (UInt32.le_iff_toNat_le.1 hc) hlast
      unfold Json.hexDigit? at h
      split at h
      · next hdigit => exact hle '9' (by decide) hdigit.2
      split at h
      · next hletter => exact hle 'f' (by decide) hletter.2
      split at h
      · next hletter => exact hle 'F' (by decide) hletter.2
      · cases h
    have hc := hall ⟨c.toNat, hsmall⟩ value
    rw [Char.ofNat_toNat] at hc
    exact hc h
  · have hall : ∀ n : Fin 16, smallDigits[n.val]? >>= Json.hexDigit? = some n.val ∧
        capitalDigits[n.val]? >>= Json.hexDigit? = some n.val := by decide +kernel
    intro h
    have hlt := h.lt
    obtain ⟨hsmall, hcapital⟩ := hall ⟨value, hlt⟩
    obtain h | h := h
    · dsimp only at hsmall
      rwa [h] at hsmall
    · dsimp only at hcapital
      rwa [h] at hcapital

/-! ## Bytes -/

/-- Two digits stand for a byte. -/
def Spells (group : List Char) (byte : UInt8) : Prop :=
  ∃ high low, group = [high, low] ∧ DigitOf (byte.toNat / 16) high ∧ DigitOf (byte.toNat % 16) low

/-- Groups of two digits stand for the bytes, one after the other. -/
def SpelledBy (digits : List Char) (bytes : List UInt8) : Prop :=
  ∃ groups, digits = groups.flatten ∧ List.Forall₂ Spells groups bytes

theorem spells_iff {high low : Char} {byte : UInt8} : Spells [high, low] byte ↔
    ∃ h l, DigitOf h high ∧ DigitOf l low ∧ byte = UInt8.ofNat (16 * h + l) := by
  constructor
  · rintro ⟨_, _, heq, hhigh, hlow⟩
    obtain ⟨rfl, hrest⟩ := List.cons.inj heq
    obtain ⟨rfl, -⟩ := List.cons.inj hrest
    exact ⟨_, _, hhigh, hlow, by rw [Nat.div_add_mod, UInt8.ofNat_toNat]⟩
  · rintro ⟨h, l, hhigh, hlow, rfl⟩
    have hh := hhigh.lt
    have hl := hlow.lt
    have hbyte : (UInt8.ofNat (16 * h + l)).toNat = 16 * h + l :=
      UInt8.toNat_ofNat_of_lt' (show 16 * h + l < 256 by omega)
    refine ⟨high, low, rfl, ?_, ?_⟩ <;> rw [hbyte]
    · rwa [show (16 * h + l) / 16 = h by omega]
    · rwa [show (16 * h + l) % 16 = l by omega]

theorem spelledBy_nil {bytes : List UInt8} : SpelledBy [] bytes ↔ bytes = [] := by
  constructor
  · rintro ⟨groups, heq, hgroups⟩
    cases hgroups with
    | nil => rfl
    | cons hspells _ =>
      obtain ⟨high, low, rfl, -⟩ := hspells
      cases heq
  · rintro rfl
    exact ⟨[], rfl, .nil⟩

theorem spelledBy_cons {high low : Char} {digits : List Char} {bytes : List UInt8} :
    SpelledBy (high :: low :: digits) bytes ↔
      ∃ byte rest, Spells [high, low] byte ∧ SpelledBy digits rest ∧ bytes = byte :: rest := by
  constructor
  · rintro ⟨groups, heq, hgroups⟩
    cases hgroups with
    | nil => cases heq
    | cons hspells hrest =>
      obtain ⟨h, l, rfl, hhigh, hlow⟩ := hspells
      simp only [List.flatten_cons, List.cons_append, List.nil_append, List.cons.injEq] at heq
      obtain ⟨rfl, rfl, rfl⟩ := heq
      exact ⟨_, _, ⟨_, _, rfl, hhigh, hlow⟩, ⟨_, rfl, hrest⟩, rfl⟩
  · rintro ⟨byte, rest, hspells, ⟨groups, rfl, hgroups⟩, rfl⟩
    exact ⟨[high, low] :: groups, rfl, .cons hspells hgroups⟩

/-- Digits are read in pairs. -/
theorem hexBytes?_eq_some {digits : List Char} {bytes : List UInt8} :
    hexBytes? digits = some bytes ↔ SpelledBy digits bytes := by
  induction digits using hexBytes?.induct generalizing bytes with
  | case1 => rw [hexBytes?, Option.some.injEq, spelledBy_nil, eq_comm]
  | case2 c =>
    refine iff_of_false nofun ?_
    rintro ⟨groups, heq, hgroups⟩
    cases hgroups with
    | nil => cases heq
    | cons hspells _ =>
      obtain ⟨high, low, rfl, -⟩ := hspells
      cases heq
  | case3 high low digits ih =>
    simp only [hexBytes?, Option.bind_eq_bind, Option.bind_eq_some_iff, Option.pure_def,
      Option.some.injEq, hexDigit?_eq_some, ih, spelledBy_cons, spells_iff]
    constructor
    · rintro ⟨h, hhigh, l, hlow, rest, hrest, rfl⟩
      exact ⟨_, rest, ⟨h, l, hhigh, hlow, rfl⟩, hrest, rfl⟩
    · rintro ⟨_, rest, ⟨h, l, hhigh, hlow, rfl⟩, hrest, rfl⟩
      exact ⟨h, hhigh, l, hlow, rest, hrest, rfl⟩

theorem SpelledBy.length {digits : List Char} {bytes : List UInt8} (h : SpelledBy digits bytes) :
    digits.length = 2 * bytes.length := by
  obtain ⟨groups, rfl, hgroups⟩ := h
  induction hgroups with
  | nil => rfl
  | cons hspells _ ih =>
    obtain ⟨high, low, rfl, -⟩ := hspells
    rw [List.flatten_cons, List.length_append, ih, List.length_cons, List.length_cons,
      List.length_nil, List.length_cons]
    omega

theorem SpelledBy.hexDigit {digits : List Char} {bytes : List UInt8} (h : SpelledBy digits bytes) :
    ∀ c ∈ digits, HexDigit c := by
  obtain ⟨groups, rfl, hgroups⟩ := h
  induction hgroups with
  | nil => nofun
  | cons hspells _ ih =>
    obtain ⟨high, low, rfl, hhigh, hlow⟩ := hspells
    rw [List.flatten_cons, List.forall_mem_append]
    refine ⟨?_, ih⟩
    simp only [List.forall_mem_cons]
    exact ⟨hexDigit_iff.2 ⟨_, hhigh⟩, hexDigit_iff.2 ⟨_, hlow⟩, nofun⟩

/-- Any digits stand for bytes when there is an even number of them. -/
theorem exists_spelledBy {digits : List Char} (hdigits : ∀ c ∈ digits, HexDigit c)
    (heven : digits.length % 2 = 0) : ∃ bytes, SpelledBy digits bytes := by
  induction digits using hexBytes?.induct with
  | case1 => exact ⟨[], spelledBy_nil.2 rfl⟩
  | case2 c => simp at heven
  | case3 high low digits ih =>
    simp only [List.forall_mem_cons, hexDigit_iff] at hdigits
    obtain ⟨⟨h, hhigh⟩, ⟨l, hlow⟩, hdigits⟩ := hdigits
    simp only [List.length_cons] at heven
    obtain ⟨rest, hrest⟩ := ih (fun c hc => hexDigit_iff.2 (hdigits c hc)) (by omega)
    exact ⟨_, spelledBy_cons.2 ⟨_, rest, spells_iff.2 ⟨h, l, hhigh, hlow, rfl⟩, hrest, rfl⟩⟩

/-! ## Colours -/

/-- The text is `#` and six or eight digits, with blanks around them. -/
def Written (text : String) (digits : List Char) : Prop :=
  (digits.length = 6 ∨ digits.length = 8) ∧ (∀ c ∈ digits, HexDigit c) ∧
    ∃ before after, (∀ c ∈ before, Text.isBlank c = true) ∧
      (∀ c ∈ after, Text.isBlank c = true) ∧ text.toList = before ++ ('#' :: digits ++ after)

theorem HexDigit.not_blank {c : Char} (h : HexDigit c) : Text.isBlank c = false := by
  have hall : (smallDigits ++ capitalDigits).all (Text.isBlank · == false) = true := by
    decide +kernel
  exact eq_of_beq (List.all_eq_true.1 hall c (List.mem_append.2 h))

theorem written_iff {text : String} {digits : List Char} : Written text digits ↔
    (digits.length = 6 ∨ digits.length = 8) ∧ (∀ c ∈ digits, HexDigit c) ∧
      Text.trim text.toList = '#' :: digits := by
  refine and_congr_right fun _ => and_congr_right fun hdigits => ⟨?_, fun htrim => ?_⟩
  · rintro ⟨before, after, hbefore, hafter, htext⟩
    have hcore : ∀ c ∈ '#' :: digits, Text.isBlank c = false :=
      List.forall_mem_cons.2 ⟨by decide, fun c hc => (hdigits c hc).not_blank⟩
    rw [htext]
    exact Text.trim_surrounded hbefore hafter (fun c hc => hcore c (List.mem_of_head? hc))
      (fun c hc => hcore c (List.mem_of_getLast? hc)) (List.cons_ne_nil _ _)
  · obtain ⟨before, after, hbefore, hafter, htext⟩ := Text.exists_surrounded text.toList
    exact ⟨before, after, hbefore, hafter, by rw [htext, htrim]⟩

theorem written_of_all {text : String} {digits : List Char}
    (hlength : digits.length = 6 ∨ digits.length = 8)
    (hdigits : digits.all (fun c => decide (HexDigit c)) = true)
    (htrim : Text.trim text.toList = '#' :: digits) : Written text digits := by
  refine written_iff.2 ⟨hlength, fun c hc => ?_, htrim⟩
  exact of_decide_eq_true (List.all_eq_true.1 hdigits c hc)

/-- A text has the channels that its digits stand for. -/
theorem channels?_eq_some {text : String} {bytes : List UInt8} :
    channels? text = some bytes ↔ ∃ digits, Written text digits ∧ SpelledBy digits bytes := by
  simp only [written_iff]
  unfold channels?
  split
  · next digits htrim =>
    simp only [htrim, List.cons.injEq, true_and]
    constructor
    · intro h
      split at h
      · next hlength =>
        have hspelled := hexBytes?_eq_some.1 h
        exact ⟨digits, ⟨hlength, hspelled.hexDigit, rfl⟩, hspelled⟩
      · cases h
    · rintro ⟨_, ⟨hlength, -, rfl⟩, hspelled⟩
      rw [if_pos hlength, hexBytes?_eq_some.2 hspelled]
  · next htrim =>
    refine iff_of_false nofun ?_
    rintro ⟨digits, ⟨-, -, heq⟩, -⟩
    exact htrim digits heq

theorem Written.exists_spelledBy {text : String} {digits : List Char} (h : Written text digits) :
    ∃ bytes, SpelledBy digits bytes :=
  Color.exists_spelledBy h.2.1 (by obtain ⟨h | h, -⟩ := h <;> rw [h])

/-- Written digits stand for three or four channels. -/
theorem Written.length_bytes {text : String} {digits : List Char} {bytes : List UInt8}
    (h : Written text digits) (hspelled : SpelledBy digits bytes) :
    bytes.length = 3 ∨ bytes.length = 4 := by
  have hlength := hspelled.length
  obtain ⟨h, -⟩ := h
  omega

/-- Three or four channels make a colour, in either order. -/
theorem Written.isSome_colors {text : String} {digits : List Char} (h : Written text digits) :
    (ofRgba? text).isSome = true ∧ (ofArgb? text).isSome = true := by
  obtain ⟨bytes, hspelled⟩ := h.exists_spelledBy
  have hchannels := channels?_eq_some.2 ⟨digits, h, hspelled⟩
  unfold ofRgba? ofArgb?
  rw [hchannels]
  obtain hlength | hlength := h.length_bytes hspelled
  · obtain ⟨r, g, b, rfl⟩ := List.length_eq_three.1 hlength
    exact ⟨rfl, rfl⟩
  · obtain ⟨r, g, b, a, rfl⟩ := List.length_eq_four.1 hlength
    exact ⟨rfl, rfl⟩

/-- Other texts have no channels, and so neither order makes a colour of them. -/
theorem colors_eq_none {text : String} (h : ¬∃ digits, Written text digits) :
    ofRgba? text = none ∧ ofArgb? text = none := by
  have hchannels : channels? text = none := by
    rw [Option.eq_none_iff_forall_ne_some]
    intro bytes hbytes
    obtain ⟨digits, hwritten, -⟩ := channels?_eq_some.1 hbytes
    exact h ⟨digits, hwritten⟩
  simp only [ofRgba?, ofArgb?, hchannels, and_self]

/-! ### The two orders -/

section Groups

variable {aa rr gg bb : List Char} {a r g b : UInt8} {text : String}

theorem spelledBy_three (hr : Spells rr r) (hg : Spells gg g) (hb : Spells bb b) :
    SpelledBy (rr ++ gg ++ bb) [r, g, b] :=
  ⟨[rr, gg, bb], by simp, .cons hr (.cons hg (.cons hb .nil))⟩

theorem spelledBy_four (hr : Spells rr r) (hg : Spells gg g) (hb : Spells bb b)
    (ha : Spells aa a) : SpelledBy (rr ++ gg ++ bb ++ aa) [r, g, b, a] :=
  ⟨[rr, gg, bb, aa], by simp, .cons hr (.cons hg (.cons hb (.cons ha .nil)))⟩

/-- The groups of a written colour stand for bytes. -/
theorem Written.exists_spells (groups : List (List Char)) (h : Written text groups.flatten)
    (hlength : ∀ group ∈ groups, group.length = 2) :
    ∀ group ∈ groups, ∃ byte, Spells group byte := by
  intro group hgroup
  have hdigits : ∀ c ∈ group, HexDigit c :=
    fun c hc => h.2.1 c (List.mem_flatten.2 ⟨group, hgroup, hc⟩)
  obtain ⟨bytes, hspelled⟩ := Color.exists_spelledBy hdigits (by rw [hlength group hgroup])
  obtain ⟨high, low, rfl⟩ := List.length_eq_two.1 (hlength group hgroup)
  obtain ⟨byte, -, hspells, -⟩ := spelledBy_cons.1 hspelled
  exact ⟨byte, hspells⟩

/-- Without alpha the colour is opaque. -/
theorem colors_of_three (h : Written text (rr ++ gg ++ bb)) (hr : Spells rr r) (hg : Spells gg g)
    (hb : Spells bb b) :
    ofRgba? text = some (pack r g b 255) ∧ ofArgb? text = some (pack r g b 255) := by
  have hchannels := channels?_eq_some.2 ⟨_, h, spelledBy_three hr hg hb⟩
  simp only [ofRgba?, ofArgb?, hchannels, and_self]

theorem ofRgba?_of_four (h : Written text (rr ++ gg ++ bb ++ aa)) (hr : Spells rr r)
    (hg : Spells gg g) (hb : Spells bb b) (ha : Spells aa a) :
    ofRgba? text = some (pack r g b a) := by
  have hchannels := channels?_eq_some.2 ⟨_, h, spelledBy_four hr hg hb ha⟩
  simp only [ofRgba?, hchannels]

theorem ofArgb?_of_four (h : Written text (aa ++ rr ++ gg ++ bb)) (ha : Spells aa a)
    (hr : Spells rr r) (hg : Spells gg g) (hb : Spells bb b) :
    ofArgb? text = some (pack r g b a) := by
  have hchannels := channels?_eq_some.2 ⟨_, h, spelledBy_four ha hr hg hb⟩
  simp only [ofArgb?, hchannels]

end Groups

/-- **The two ways to write a colour accept the same texts and differ in the place of alpha.**
Either way accepts a text exactly when it is `#` and six or eight hexadecimal digits of either case,
with blanks around them. Six digits are the same opaque colour both ways. Eight digits with alpha
in front are, one way, the colour that the same groups with alpha behind are the other way. -/
theorem written_colors_agree (text : String) :
    ((ofRgba? text).isSome = true ↔ ∃ digits, Written text digits) ∧
    ((ofArgb? text).isSome = true ↔ ∃ digits, Written text digits) ∧
    (∀ rr gg bb, (∀ group ∈ [rr, gg, bb], group.length = 2) → Written text (rr ++ gg ++ bb) →
      ∃ r g b, Spells rr r ∧ Spells gg g ∧ Spells bb b ∧
        ofRgba? text = some (pack r g b 255) ∧ ofArgb? text = some (pack r g b 255)) ∧
    ∀ aa rr gg bb, (∀ group ∈ [aa, rr, gg, bb], group.length = 2) →
      Written text (aa ++ rr ++ gg ++ bb) →
      ∃ a r g b, Spells aa a ∧ Spells rr r ∧ Spells gg g ∧ Spells bb b ∧
        ofArgb? text = some (pack r g b a) ∧
        ∀ other, Written other (rr ++ gg ++ bb ++ aa) → ofRgba? other = some (pack r g b a) := by
  have hnone : ∀ {colour : Option UInt16}, colour.isSome = true → colour ≠ none := by
    rintro _ h rfl
    cases h
  refine ⟨⟨fun h => ?_, fun ⟨_, h⟩ => h.isSome_colors.1⟩,
    ⟨fun h => ?_, fun ⟨_, h⟩ => h.isSome_colors.2⟩, ?_, ?_⟩
  · exact by_contra fun hnot => hnone h (colors_eq_none hnot).1
  · exact by_contra fun hnot => hnone h (colors_eq_none hnot).2
  · intro rr gg bb hlength hwritten
    have hspells := Written.exists_spells [rr, gg, bb] (by simpa using hwritten) hlength
    simp only [List.forall_mem_cons] at hspells
    obtain ⟨⟨r, hr⟩, ⟨g, hg⟩, ⟨b, hb⟩, -⟩ := hspells
    exact ⟨r, g, b, hr, hg, hb, colors_of_three hwritten hr hg hb⟩
  · intro aa rr gg bb hlength hwritten
    have hspells := Written.exists_spells [aa, rr, gg, bb] (by simpa using hwritten) hlength
    simp only [List.forall_mem_cons] at hspells
    obtain ⟨⟨a, ha⟩, ⟨r, hr⟩, ⟨g, hg⟩, ⟨b, hb⟩, -⟩ := hspells
    exact ⟨a, r, g, b, ha, hr, hg, hb, ofArgb?_of_four hwritten ha hr hg hb,
      fun other hother => ofRgba?_of_four hother hr hg hb ha⟩

/-- Blanks around a colour and letters of either case change nothing. -/
theorem written_pink_agrees :
    (∃ pink, ofArgb? "\t#80FFc0Cb" = some pink ∧ ofRgba? "#FFc0Cb80 " = some pink) ∧
    (∃ pink, ofArgb? "#fFC0cB" = some pink ∧ ofRgba? "#fFC0cB" = some pink) ∧
    (ofRgba? "#FFC0C").isSome = false := by
  refine ⟨?_, ?_, ?_⟩
  · obtain ⟨a, r, g, b, -, -, -, -, hargb, hrgba⟩ :=
      (written_colors_agree "\t#80FFc0Cb").2.2.2 ['8', '0'] ['F', 'F'] ['c', '0'] ['C', 'b']
        (by decide) (written_of_all (.inr rfl) (by decide +kernel) (by decide +kernel))
    exact ⟨_, hargb, hrgba _ (written_of_all (.inr rfl) (by decide +kernel) (by decide +kernel))⟩
  · obtain ⟨r, g, b, -, -, -, hrgba, hargb⟩ :=
      (written_colors_agree "#fFC0cB").2.2.1 ['f', 'F'] ['C', '0'] ['c', 'B']
        (by decide) (written_of_all (.inl rfl) (by decide +kernel) (by decide +kernel))
    exact ⟨_, hargb, hrgba⟩
  · rw [Bool.eq_false_iff, ne_eq, (written_colors_agree "#FFC0C").1]
    rintro ⟨digits, hwritten⟩
    obtain ⟨hlength, -, htrim⟩ := written_iff.1 hwritten
    have hdigits : Text.trim "#FFC0C".toList = "#FFC0C".toList := by decide +kernel
    have hcount := congrArg List.length (htrim.symm.trans hdigits)
    simp at hcount
    omega

end Color

end GameBundle
