import GameBundle.Proofs.Build.Lookups

set_option autoImplicit false

/-! # Texts with and without tokens

What replacing tokens does to a text that has none, and to one with a single token in it. Replacing
the tokens of a text first without a map and then on some map makes no difference, as far as the
first attempt succeeds. -/

namespace GameBundle

namespace Text

variable {mark : Char} {before name after : List Char}

/-! ## Pieces -/

theorem pieces_append (hbefore : mark ∉ before) (rest : List Char) :
    pieces mark (before ++ rest) = before.map Piece.char ++ pieces mark rest := by
  induction before with
  | nil => rfl
  | cons c before ih =>
    simp only [List.mem_cons, not_or] at hbefore
    rw [List.cons_append, pieces, if_neg (Ne.symm hbefore.1), ih hbefore.2]
    rfl

theorem closing?_append (hmark : mark ∉ name) (hline : '\n' ∉ name) :
    closing? mark (name ++ mark :: after) = some (name, after) := by
  induction name with
  | nil =>
    rw [List.nil_append, closing?]
    simp
  | cons c name ih =>
    simp only [List.mem_cons, not_or] at hmark hline
    rw [List.cons_append, closing?, if_neg (Ne.symm hmark.1), if_neg (Ne.symm hline.1),
      ih hmark.2 hline.2]
    rfl

theorem pieces_token (hmark : mark ∉ name) (hline : '\n' ∉ name) :
    pieces mark (mark :: (name ++ mark :: after)) = .token name :: pieces mark after := by
  rw [pieces, if_pos rfl]
  split
  · next found rest hfound =>
    rw [closing?_append hmark hline] at hfound
    cases hfound
    rfl
  · next hnone =>
    rw [closing?_append hmark hline] at hnone
    cases hnone

/-! ## Replacing -/

section Replacing

variable {ε : Type} {f : String → Except ε String}

theorem map_eq_ok {α β : Type} {x : Except ε α} {g : α → β} {b : β} :
    g <$> x = .ok b ↔ ∃ a, x = .ok a ∧ g a = b := by
  cases x with
  | error e => simp [Functor.map, Except.map]
  | ok a => simp [Functor.map, Except.map]

/-- Characters stay what they are. -/
theorem forall₂_chars {g : Piece → Except ε (List Char)} (hg : ∀ c, g (.char c) = .ok [c])
    {chars : List Char} {parts : List (List Char)} :
    List.Forall₂ (fun piece part => g piece = .ok part) (chars.map Piece.char) parts ↔
      parts = chars.map fun c => [c] := by
  simp only [List.forall₂_map_left_iff, hg, Except.ok.injEq]
  rw [← List.forall₂_map_left_iff, List.forall₂_eq_eq_eq, eq_comm]

theorem flatten_chars (chars : List Char) : (chars.map fun c => [c]).flatten = chars := by
  rw [← List.flatMap_def, List.flatMap_singleton']

/-- What stands in front of the first mark stays what it is. -/
theorem replaceTokens_append {front rest result : String} (hfront : mark ∉ front.toList) :
    replaceTokens mark f (front ++ rest) = .ok result ↔
      ∃ tail, replaceTokens mark f rest = .ok tail ∧ result = front ++ tail := by
  simp only [replaceTokens, bind_eq_ok, pure_eq_ok, String.toList_append, pieces_append hfront,
    List.mapM_append, mapM_eq_ok]
  constructor
  · rintro ⟨_, ⟨chars, hchars, parts, hparts, rfl⟩, rfl⟩
    obtain rfl := (forall₂_chars fun _ => rfl).1 hchars
    refine ⟨_, ⟨parts, hparts, rfl⟩, ?_⟩
    rw [List.flatten_append, flatten_chars, String.ofList_append, String.ofList_toList]
  · rintro ⟨_, ⟨parts, hparts, rfl⟩, rfl⟩
    refine ⟨_, ⟨_, (forall₂_chars fun _ => rfl).2 rfl, parts, hparts, rfl⟩, ?_⟩
    rw [List.flatten_append, flatten_chars, String.ofList_append, String.ofList_toList]

/-- A token in front is replaced. -/
theorem replaceTokens_token_append {token rest result : String} (htoken : mark ∉ token.toList)
    (hline : '\n' ∉ token.toList) :
    replaceTokens mark f (mark.toString ++ token ++ mark.toString ++ rest) = .ok result ↔
      ∃ value tail, f token = .ok value ∧ replaceTokens mark f rest = .ok tail ∧
        result = value ++ tail := by
  have htext : (mark.toString ++ token ++ mark.toString ++ rest).toList =
      mark :: (token.toList ++ mark :: rest.toList) := by
    simp
  simp only [replaceTokens, bind_eq_ok, pure_eq_ok, htext, pieces_token htoken hline,
    List.mapM_cons, String.ofList_toList, map_eq_ok]
  constructor
  · rintro ⟨_, ⟨_, ⟨value, hvalue, rfl⟩, parts, hparts, rfl⟩, rfl⟩
    refine ⟨value, _, hvalue, ⟨parts, hparts, rfl⟩, ?_⟩
    rw [List.flatten_cons, String.ofList_append, String.ofList_toList]
  · rintro ⟨value, _, hvalue, ⟨parts, hparts, rfl⟩, rfl⟩
    refine ⟨_, ⟨_, ⟨value, hvalue, rfl⟩, parts, hparts, rfl⟩, ?_⟩
    rw [List.flatten_cons, String.ofList_append, String.ofList_toList]

/-- A text without marks stays what it is. -/
theorem replaceTokens_plain {text : String} (htext : mark ∉ text.toList) :
    replaceTokens mark f text = .ok text := by
  have hempty : replaceTokens mark f "" = .ok "" := by
    simp only [replaceTokens, String.toList_empty, pieces, List.mapM_nil]
    rfl
  rw [← String.append_empty (s := text)]
  exact (replaceTokens_append htext).2 ⟨"", hempty, rfl⟩

/-- A token is replaced where it stands. -/
theorem replaceTokens_token {front token back value : String} (hfront : mark ∉ front.toList)
    (htoken : mark ∉ token.toList) (hline : '\n' ∉ token.toList) (hback : mark ∉ back.toList)
    (hvalue : f token = .ok value) :
    replaceTokens mark f (front ++ mark.toString ++ token ++ mark.toString ++ back) =
      .ok (front ++ value ++ back) := by
  have htext : front ++ mark.toString ++ token ++ mark.toString ++ back =
      front ++ (mark.toString ++ token ++ mark.toString ++ back) := by
    simp only [String.append_assoc]
  rw [htext, replaceTokens_append hfront]
  exact ⟨value ++ back, (replaceTokens_token_append htoken hline).2
    ⟨value, back, hvalue, replaceTokens_plain hback, rfl⟩, String.append_assoc⟩

end Replacing

end Text

/-! ## Objects and variables -/

variable {numbers : Ordered UInt16}

/-- Without a map only reserved names stand for objects, and they mean the same on every map. -/
theorem templatize_of_none {text value : String} (h : templatize none numbers text = .ok value)
    (map : Option MapContext) : templatize map numbers text = .ok value := by
  simp only [templatize, bind_eq_ok] at h ⊢
  obtain ⟨withObjects, hobjects, hvariables⟩ := h
  refine ⟨withObjects, replaceTokens_mono (fun name token htoken => ?_) hobjects, hvariables⟩
  simp only [bind_eq_ok, pure_eq_ok] at htoken ⊢
  obtain ⟨index, hindex, rfl⟩ := htoken
  refine ⟨index, ?_, rfl⟩
  unfold objectToken at hindex ⊢
  cases hreserved : reservedNumber? s!"%{name}%" with
  | some reserved =>
    rw [hreserved] at hindex
    exact hindex
  | none =>
    rw [hreserved] at hindex
    cases hindex

/-- A text without marks stays what it is. -/
theorem templatize_plain {text : String} (hobjects : '%' ∉ text.toList)
    (hvariables : '$' ∉ text.toList) (map : Option MapContext) :
    templatize map numbers text = .ok text := by
  simp only [templatize, bind_eq_ok]
  exact ⟨text, Text.replaceTokens_plain hobjects, Text.replaceTokens_plain hvariables⟩

/-- A variable is replaced by its number between doubled marks. -/
theorem templatize_variable {front name back : String} {index : UInt16}
    (hfront : '%' ∉ front.toList ∧ '$' ∉ front.toList)
    (hname : '%' ∉ name.toList ∧ '$' ∉ name.toList ∧ '\n' ∉ name.toList)
    (hback : '%' ∉ back.toList ∧ '$' ∉ back.toList) (hfind : numbers.find? name = some index)
    (map : Option MapContext) :
    templatize map numbers s!"{front}${name}${back}" = .ok s!"{front}$${index}$${back}" := by
  have htext : s!"{front}${name}${back}" =
      front ++ '$'.toString ++ name ++ '$'.toString ++ back := by
    simp [toString]
  have hreplaced : ∀ text, Text.replaceTokens '$'
      (fun name => do return s!"$${← variableToken numbers text name}$$")
      (front ++ '$'.toString ++ name ++ '$'.toString ++ back) =
        .ok (front ++ s!"$${index}$$" ++ back) := by
    intro text
    apply Text.replaceTokens_token hfront.2 hname.2.1 hname.2.2 hback.2
    simp only [variableToken, hfind]
    rfl
  simp only [templatize, bind_eq_ok]
  refine ⟨s!"{front}${name}${back}", Text.replaceTokens_plain ?_, ?_⟩
  · rw [htext]
    simp [hfront.1, hname.1, hback.1]
  · rw [htext, hreplaced]
    simp [toString, String.append_assoc]

end GameBundle
