set_option autoImplicit false

/-! # Tokens in text

A token is a name between two marks, `%Bob%` or `$coins$`. A mark opens a token if another one
follows on the same line; the token ends at the nearest one. `pieces` cuts a text into tokens and
single characters, and nothing is lost: `spell_pieces` puts the text together again. -/

namespace GameBundle.Text

/-- Part of a text with tokens. -/
inductive Piece
  | char (c : Char)
  | token (name : List Char)
  deriving Repr, DecidableEq

/-- The text a piece was cut from. -/
def Piece.spell (mark : Char) : Piece → List Char
  | .char c => [c]
  | .token name => mark :: name ++ [mark]

/-- The name up to the nearest mark on the line, and what follows the mark. -/
def closing? (mark : Char) : List Char → Option (List Char × List Char)
  | [] => none
  | c :: rest =>
    if c = mark then some ([], rest)
    else if c = '\n' then none
    else (closing? mark rest).map fun (name, after) => (c :: name, after)

theorem eq_append_of_closing? {mark : Char} {text name after : List Char}
    (h : closing? mark text = some (name, after)) : text = name ++ mark :: after := by
  induction text generalizing name with
  | nil => simp [closing?] at h
  | cons c rest ih =>
    rw [closing?] at h
    split at h
    · next hc =>
      cases h
      simp [hc]
    · split at h
      · cases h
      · obtain ⟨⟨n, a⟩, hn, he⟩ := Option.map_eq_some_iff.1 h
        cases he
        simp [ih hn]

/-- Cut a text into tokens and single characters. -/
def pieces (mark : Char) : List Char → List Piece
  | [] => []
  | c :: rest =>
    if c = mark then
      match _h : closing? mark rest with
      | some (name, after) => .token name :: pieces mark after
      | none => .char c :: pieces mark rest
    else .char c :: pieces mark rest
  termination_by text => text.length
  decreasing_by
    · have := eq_append_of_closing? _h
      simp only [this, List.length_cons, List.length_append]
      omega
    · simp
    · simp

/-- **Cutting a text loses nothing.** -/
theorem spell_pieces (mark : Char) (text : List Char) :
    (pieces mark text).flatMap (Piece.spell mark) = text := by
  fun_induction pieces mark text with
  | case1 => rfl
  | case2 rest name after h ih =>
    simp [Piece.spell, ih, eq_append_of_closing? h]
  | case3 rest h ih => simp [Piece.spell, ih]
  | case4 c rest hc ih => simp [Piece.spell, ih]

/-- Replace every token by what `value` gives for its name. -/
def replaceTokens {m : Type → Type} [Monad m] (mark : Char) (value : String → m String)
    (text : String) : m String := do
  let parts ← (pieces mark text.toList).mapM fun
    | .char c => pure [c]
    | .token name => String.toList <$> value (String.ofList name)
  return String.ofList parts.flatten

end GameBundle.Text
