import GameBundle.Proofs.Text.Tokens

set_option autoImplicit false

/-! # Texts put together from parts

A text is read from left to right, and what it becomes is put together from what its parts become:
`templatizeWithin_append` says so of the part in front. A part is text without marks or one token. The
objects of a text are replaced first. That leaves doubled marks around numbers, which are not looked
at again, since variables have another mark. -/

namespace GameBundle

/-! ## Parts -/

/-- A name that can stand between marks. -/
structure TokenName where
  text : String
  noObjectMark : '%' ∉ text.toList
  noVariableMark : '$' ∉ text.toList
  oneLine : '\n' ∉ text.toList

/-- Part of a text. -/
inductive TextPart
  | literal (text : String) (noObjectMark : '%' ∉ text.toList) (noVariableMark : '$' ∉ text.toList)
  | object (name : TokenName)
  | gameVariable (name : TokenName)

/-- The number of a reserved word, or else of the first object of that name. -/
def objectNumber? (map : Option MapContext) (name : String) : Option UInt16 :=
  match reservedNumber? s!"%{name}%" with
  | some index => some index
  | none => map.bind fun map => (map.objects.find? (·.name == name)).map (·.slot.index)

namespace TextPart

/-- How a part is written. -/
def spell : TextPart → String
  | literal text _ _ => text
  | object name => s!"%{name.text}%"
  | gameVariable name => s!"${name.text}$"

/-- What a part becomes. -/
def value? (map : Option MapContext) (numbers : Ordered UInt16) : TextPart → Option String
  | literal text _ _ => some text
  | object name => (objectNumber? map name.text).map fun index => s!"%%{index}%%"
  | gameVariable name => (numbers.find? name.text).map fun index => s!"$${index}$$"

/-- Does what a part names exist? -/
def Known (map : Option MapContext) (numbers : Ordered UInt16) : TextPart → Prop
  | literal .. => True
  | object name => s!"%{name.text}%" ∈ reservedWords.map Prod.fst ∨
      ∃ m, map = some m ∧ ∃ object ∈ m.objects, object.name = name.text
  | gameVariable name => name.text ∈ numbers.keys

end TextPart

/-! ## Names -/

variable {map : Option MapContext} {numbers : Ordered UInt16} {whole rest result : String}

theorem mem_of_reservedNumber? {word : String} {index : UInt16}
    (h : reservedNumber? word = some index) : word ∈ reservedWords.map Prod.fst :=
  List.mem_map_of_mem (mem_of_lookup h)

/-- A reserved word has its marks. -/
theorem reservedNumber?_eq_none {name : String} (hname : '%' ∉ name.toList) :
    reservedNumber? name = none := by
  have hmarks : ∀ word ∈ reservedWords.map Prod.fst, '%' ∈ word.toList := by decide
  rw [Option.eq_none_iff_forall_ne_some]
  exact fun index hindex => hname (hmarks name (mem_of_reservedNumber? hindex))

theorem objectToken_eq_ok {name : TokenName} {index : UInt16} :
    objectToken map whole name.text = .ok index ↔ objectNumber? map name.text = some index := by
  unfold objectToken objectNumber?
  cases reservedNumber? s!"%{name.text}%" with
  | some reserved => simp
  | none =>
    cases map with
    | none => simp
    | some map =>
      simp only [MapContext.objectNumber, MapContext.number,
        reservedNumber?_eq_none name.noObjectMark, MapContext.find?, Bool.and_true]
      cases hobject : map.objects.find? (·.name == name.text) with
      | none => simp [hobject]
      | some object => simp [hobject]

theorem variableToken_eq_ok {name : String} {index : UInt16} :
    variableToken numbers whole name = .ok index ↔ numbers.find? name = some index := by
  unfold variableToken
  cases numbers.find? name with
  | none => simp
  | some found => simp

theorem exists_objectNumber? {name : String} : (∃ index, objectNumber? map name = some index) ↔
    s!"%{name}%" ∈ reservedWords.map Prod.fst ∨
      ∃ m, map = some m ∧ ∃ object ∈ m.objects, object.name = name := by
  unfold objectNumber?
  cases hreserved : reservedNumber? s!"%{name}%" with
  | some reserved =>
    exact iff_of_true ⟨reserved, rfl⟩ (.inl (mem_of_reservedNumber? hreserved))
  | none =>
    have hword : s!"%{name}%" ∉ reservedWords.map Prod.fst := fun hmem => by
      obtain ⟨⟨word, index⟩, hentry, hword⟩ := List.mem_map.1 hmem
      exact bne_iff_ne.1 (List.lookup_eq_none_iff.1 hreserved _ hentry) hword.symm
    cases map with
    | none => simp [hword]
    | some map =>
      simp only [Option.bind_some, Option.map_eq_some_iff, hword, false_or, Option.some.injEq,
        exists_eq_left']
      constructor
      · rintro ⟨index, object, hobject, rfl⟩
        have hname := Array.find?_some hobject
        exact ⟨object, Array.mem_of_find?_eq_some hobject, by simpa using hname⟩
      · rintro ⟨object, hmem, hname⟩
        obtain ⟨found, hfound⟩ := Option.isSome_iff_exists.1
          ((Array.find?_isSome (p := (·.name == name))).2 ⟨object, hmem, by simpa using hname⟩)
        exact ⟨found.slot.index, found, hfound, rfl⟩

/-! ## One part after the other -/

/-- What `templatize` does to a piece of a longer text. Messages quote the whole text. -/
def templatizeWithin (whole : String) (map : Option MapContext) (numbers : Ordered UInt16)
    (text : String) : Except BuildError String := do
  let withObjects ← Text.replaceTokens '%'
    (fun name => do return s!"%%{← objectToken map whole name}%%") text
  Text.replaceTokens '$'
    (fun name => do return s!"$${← variableToken numbers whole name}$$") withObjects

theorem templatize_eq (text : String) :
    templatize map numbers text = templatizeWithin text map numbers text := rfl

theorem not_mem_toString_of_not_isDigit {index : UInt16} {c : Char} (hc : c.isDigit = false) :
    c ∉ (toString index).toList := by
  intro hmem
  rw [show toString index = String.ofList (Nat.toDigits 10 index.toNat) from rfl,
    String.toList_ofList] at hmem
  rw [Nat.isDigit_of_mem_toDigits (by decide) (by decide) hmem] at hc
  cases hc

theorem templatizeWithin_literal {text : String} (hobject : '%' ∉ text.toList)
    (hvariable : '$' ∉ text.toList) :
    templatizeWithin whole map numbers (text ++ rest) = .ok result ↔
      ∃ tail, templatizeWithin whole map numbers rest = .ok tail ∧ result = text ++ tail := by
  simp only [templatizeWithin, bind_eq_ok, Text.replaceTokens_append hobject]
  constructor
  · rintro ⟨_, ⟨objects, hobjects, rfl⟩, hresult⟩
    obtain ⟨tail, htail, rfl⟩ := (Text.replaceTokens_append hvariable).1 hresult
    exact ⟨tail, ⟨objects, hobjects, htail⟩, rfl⟩
  · rintro ⟨tail, ⟨objects, hobjects, htail⟩, rfl⟩
    exact ⟨_, ⟨objects, hobjects, rfl⟩, (Text.replaceTokens_append hvariable).2 ⟨tail, htail, rfl⟩⟩

/-- The number that an object gets between its marks is plain text for the variables. -/
theorem templatizeWithin_object {name : TokenName} :
    templatizeWithin whole map numbers ((TextPart.object name).spell ++ rest) = .ok result ↔
      ∃ value tail, (TextPart.object name).value? map numbers = some value ∧
        templatizeWithin whole map numbers rest = .ok tail ∧ result = value ++ tail := by
  have hspell : (TextPart.object name).spell ++ rest =
      '%'.toString ++ name.text ++ '%'.toString ++ rest := by
    simp [TextPart.spell, toString]
  have hnumber : ∀ index : UInt16, '$' ∉ (s!"%%{index}%%").toList := fun index => by
    have hdigits : '$' ∉ (toString index).toList := not_mem_toString_of_not_isDigit (by decide)
    simpa [toString] using hdigits
  simp only [templatizeWithin, hspell, bind_eq_ok, pure_eq_ok, objectToken_eq_ok, TextPart.value?,
    Text.replaceTokens_token_append name.noObjectMark name.oneLine, Option.map_eq_some_iff]
  constructor
  · rintro ⟨_, ⟨_, objects, ⟨index, hindex, rfl⟩, hobjects, rfl⟩, hresult⟩
    obtain ⟨tail, htail, rfl⟩ := (Text.replaceTokens_append (hnumber index)).1 hresult
    exact ⟨_, tail, ⟨index, hindex, rfl⟩, ⟨objects, hobjects, htail⟩, rfl⟩
  · rintro ⟨_, tail, ⟨index, hindex, rfl⟩, ⟨objects, hobjects, htail⟩, rfl⟩
    exact ⟨_, ⟨_, objects, ⟨index, hindex, rfl⟩, hobjects, rfl⟩,
      (Text.replaceTokens_append (hnumber index)).2 ⟨tail, htail, rfl⟩⟩

/-- A variable with its marks is plain text for the objects. -/
theorem templatizeWithin_gameVariable {name : TokenName} :
    templatizeWithin whole map numbers ((TextPart.gameVariable name).spell ++ rest) = .ok result ↔
      ∃ value tail, (TextPart.gameVariable name).value? map numbers = some value ∧
        templatizeWithin whole map numbers rest = .ok tail ∧ result = value ++ tail := by
  have hspell : (TextPart.gameVariable name).spell =
      '$'.toString ++ name.text ++ '$'.toString := by
    simp [TextPart.spell, toString]
  have hplain : '%' ∉ (TextPart.gameVariable name).spell.toList := by
    simp [hspell, name.noObjectMark]
  simp only [templatizeWithin, bind_eq_ok, Text.replaceTokens_append hplain, TextPart.value?,
    Option.map_eq_some_iff]
  constructor
  · rintro ⟨_, ⟨objects, hobjects, rfl⟩, hresult⟩
    rw [hspell, Text.replaceTokens_token_append name.noVariableMark name.oneLine] at hresult
    obtain ⟨_, tail, hvalue, htail, rfl⟩ := hresult
    simp only [bind_eq_ok, pure_eq_ok, variableToken_eq_ok] at hvalue
    exact ⟨_, tail, hvalue, ⟨objects, hobjects, htail⟩, rfl⟩
  · rintro ⟨_, tail, ⟨index, hindex, rfl⟩, ⟨objects, hobjects, htail⟩, rfl⟩
    refine ⟨_, ⟨objects, hobjects, rfl⟩, ?_⟩
    rw [hspell, Text.replaceTokens_token_append name.noVariableMark name.oneLine]
    refine ⟨_, tail, ?_, htail, rfl⟩
    simp only [bind_eq_ok, pure_eq_ok, variableToken_eq_ok]
    exact ⟨index, hindex, rfl⟩

/-- **A part in front is replaced on its own.** -/
theorem templatizeWithin_append {part : TextPart} :
    templatizeWithin whole map numbers (part.spell ++ rest) = .ok result ↔
      ∃ value tail, part.value? map numbers = some value ∧
        templatizeWithin whole map numbers rest = .ok tail ∧ result = value ++ tail := by
  cases part with
  | literal text hobject hvariable =>
    simp [TextPart.spell, TextPart.value?, templatizeWithin_literal hobject hvariable]
  | object name => exact templatizeWithin_object
  | gameVariable name => exact templatizeWithin_gameVariable

/-! ## All parts -/

/-- **A text becomes what its parts become.** -/
theorem templatizeWithin_join {parts : List TextPart} :
    templatizeWithin whole map numbers (String.join (parts.map TextPart.spell)) = .ok result ↔
      ∃ values, List.Forall₂ (fun part value => part.value? map numbers = some value) parts values ∧
        result = String.join values := by
  induction parts generalizing result with
  | nil =>
    have hempty : templatizeWithin whole map numbers "" = .ok "" := by
      simp only [templatizeWithin, bind_eq_ok]
      exact ⟨"", Text.replaceTokens_plain (by decide), Text.replaceTokens_plain (by decide)⟩
    simp [hempty, eq_comm]
  | cons part parts ih =>
    simp only [List.map_cons, String.join_cons, templatizeWithin_append, ih,
      List.forall₂_cons_left_iff]
    constructor
    · rintro ⟨value, _, hvalue, ⟨values, hvalues, rfl⟩, rfl⟩
      exact ⟨_, ⟨value, values, hvalue, hvalues, rfl⟩, by rw [String.join_cons]⟩
    · rintro ⟨_, ⟨value, values, hvalue, hvalues, rfl⟩, rfl⟩
      exact ⟨value, _, hvalue, ⟨values, hvalues, rfl⟩, by rw [String.join_cons]⟩

theorem TextPart.known_iff {part : TextPart} :
    part.Known map numbers ↔ ∃ value, part.value? map numbers = some value := by
  cases part with
  | literal text => exact iff_of_true trivial ⟨text, rfl⟩
  | object name =>
    simp only [Known, value?, ← exists_objectNumber?, Option.map_eq_some_iff]
    exact ⟨fun ⟨index, hindex⟩ => ⟨_, index, hindex, rfl⟩, fun ⟨_, index, hindex, _⟩ => ⟨index, hindex⟩⟩
  | gameVariable name =>
    simp only [Known, value?, Option.map_eq_some_iff]
    constructor
    · intro hname
      obtain ⟨index, hindex⟩ := Ordered.exists_find? hname
      exact ⟨_, index, hindex, rfl⟩
    · rintro ⟨_, index, hindex, -⟩
      exact Ordered.mem_keys hindex

theorem forall_known_iff {parts : List TextPart} :
    (∀ part ∈ parts, part.Known map numbers) ↔
      ∃ values, List.Forall₂ (fun part value => part.value? map numbers = some value) parts values := by
  simp only [TextPart.known_iff]
  induction parts with
  | nil => simp
  | cons part parts ih =>
    simp only [List.forall_mem_cons, ih, List.forall₂_cons_left_iff]
    constructor
    · rintro ⟨⟨value, hvalue⟩, values, hvalues⟩
      exact ⟨_, value, values, hvalue, hvalues, rfl⟩
    · rintro ⟨_, value, values, hvalue, hvalues, rfl⟩
      exact ⟨⟨value, hvalue⟩, values, hvalues⟩

/-- **A text made of parts becomes what its parts become**, if everything they name exists. And what
    any text has become it becomes again when there are more variables, and on every map if it
    needed none. -/
theorem templatize_compositional (map : Option MapContext) (numbers : Ordered UInt16) :
    (∀ parts : List TextPart,
      ((∃ result, templatize map numbers (String.join (parts.map TextPart.spell)) = .ok result) ↔
        ∀ part ∈ parts, part.Known map numbers) ∧
      ∀ result, templatize map numbers (String.join (parts.map TextPart.spell)) = .ok result →
        ∃ values, List.Forall₂ (fun part value => part.value? map numbers = some value) parts values ∧
          result = String.join values) ∧
    ∀ text value, templatize map numbers text = .ok value →
      ∀ larger : Ordered UInt16, numbers.StaysIn larger →
        templatize map larger text = .ok value ∧
        (map = none → ∀ other, templatize other larger text = .ok value) := by
  refine ⟨fun parts => ⟨?_, fun result hresult => ?_⟩, fun text value hvalue larger hlarger => ?_⟩
  · rw [forall_known_iff]
    simp only [templatize_eq, templatizeWithin_join]
    exact ⟨fun ⟨_, values, hvalues, _⟩ => ⟨values, hvalues⟩,
      fun ⟨values, hvalues⟩ => ⟨_, values, hvalues, rfl⟩⟩
  · rw [templatize_eq] at hresult
    exact templatizeWithin_join.1 hresult
  · have hmore := templatize_mono hlarger hvalue
    refine ⟨hmore, ?_⟩
    rintro rfl other
    exact templatize_of_none hmore other

/-- A square with one person on it. -/
def squareOfBob : MapContext := { name := "square", index := 0, objects := #[⟨1, "Bob", .entity 3⟩] }

/-- The text `Ask %Bob%%MAP%` and, on the next line, `for $coins$.` -/
def askForCoins : List TextPart :=
  [.literal "Ask " (by decide) (by decide), .object ⟨"Bob", by decide, by decide, by decide⟩,
    .object ⟨"MAP", by decide, by decide, by decide⟩, .literal "\nfor " (by decide) (by decide),
    .gameVariable ⟨"coins", by decide, by decide, by decide⟩,
    .literal "." (by decide) (by decide)]

theorem templatize_compositional_square :
    (∀ part ∈ askForCoins, part.Known (some squareOfBob) (.ofList [("coins", 7)])) ∧
      templatize (some squareOfBob) (.ofList [("coins", 7)]) "Ask %Bob%%MAP%\nfor $coins$." =
        .ok "Ask %%3%%%%255%%\nfor $$7$$." ∧
      ∀ other, templatize other (.ofList [("coins", 7), ("gems", 8)]) "$coins$ of %PLAYER%" =
        .ok "$$7$$ of %%253%%" := by
  have hknown : ∀ part ∈ askForCoins, part.Known (some squareOfBob) (.ofList [("coins", 7)]) := by
    have hcoins : "coins" ∈ (Ordered.ofList [("coins", (7 : UInt16))]).keys := by decide +kernel
    simp only [askForCoins, List.forall_mem_cons]
    exact ⟨trivial, .inr ⟨_, rfl, _, Array.mem_singleton.2 rfl, rfl⟩, .inl (by decide), trivial,
      hcoins, trivial, List.forall_mem_nil _⟩
  refine ⟨hknown, ?_, ?_⟩
  · obtain ⟨hsucceeds, hvalues⟩ :=
      (templatize_compositional (some squareOfBob) (.ofList [("coins", 7)])).1 askForCoins
    obtain ⟨result, hresult⟩ := hsucceeds.2 hknown
    obtain ⟨values, hforall, rfl⟩ := hvalues result hresult
    have hmap : values.map some = ["Ask ", "%%3%%", "%%255%%", "\nfor ", "$$7$$", "."].map some :=
      (map_eq_of_forall₂ (hforall.imp fun _ _ h => h.symm)).trans (by decide +kernel)
    obtain rfl := List.map_injective_iff.2 (Option.some_injective _) hmap
    have htext : String.join (askForCoins.map TextPart.spell) = "Ask %Bob%%MAP%\nfor $coins$." := by
      decide +kernel
    rw [htext] at hresult
    exact hresult.trans (congrArg Except.ok (by decide +kernel))
  · have hnone : templatize none (.ofList [("coins", 7)]) "$coins$ of %PLAYER%" =
        .ok "$$7$$ of %%253%%" := by decide +kernel
    have hlarger : (Ordered.ofList [("coins", (7 : UInt16))]).StaysIn
        (.ofList [("coins", 7), ("gems", 8)]) := .put (by decide +kernel)
    exact ((templatize_compositional none (.ofList [("coins", 7)])).2 _ _ hnone _ hlarger).2 rfl

end GameBundle
