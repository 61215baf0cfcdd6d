import GameBundle.Build.Entities
import GameBundle.Proofs.Properties
import Mathlib.Data.List.Induction

set_option autoImplicit false

/-! # The value that an entity inherits

Layers of properties are laid over each other, the most general first. The result has the keys of
all layers in the order in which they first appear. Under each key it has the value of the last
layer that has something to show there, or `null` if no layer has. This makes laying over
associative: layers can be put together in groups.

An entity is put together in two steps, because the type that selects its prototype is itself a
property that the object or its tile may give. The same rule describes the result: the object comes
first, then its tile, then the prototype. -/

namespace GameBundle

/-! ## Maps with the same keys and values -/

/-- An ordered map is known by its keys and what they lead to. -/
theorem Ordered.ext_find? {α : Type} {m m' : Ordered α} (hkeys : m.keys = m'.keys)
    (hfind : ∀ key ∈ m.keys, m.find? key = m'.find? key) : m = m' := by
  have hentries : m.entries = m'.entries := by
    refine List.ext_getElem? fun i => ?_
    have hkey : (m.entries[i]?).map Prod.fst = (m'.entries[i]?).map Prod.fst := by
      rw [← List.getElem?_map, ← List.getElem?_map]
      exact congrArg (·[i]?) hkeys
    cases h : m.entries[i]? with
    | none =>
      rw [h] at hkey
      exact (Option.map_eq_none_iff.1 hkey.symm).symm
    | some e =>
      rw [h] at hkey
      obtain ⟨e', he', hfst⟩ := Option.map_eq_some_iff.1 hkey.symm
      have hmem : (e.1, e.2) ∈ m.entries := List.mem_of_getElem? h
      have hmem' : (e.1, e'.2) ∈ m'.entries := by
        rw [← hfst]
        exact List.mem_of_getElem? he'
      have hsame := hfind e.1 (List.mem_map_of_mem hmem)
      rw [Ordered.find?_of_mem hmem, Ordered.find?_of_mem hmem'] at hsame
      rw [he', Prod.ext hfst (Option.some.inj hsame).symm]
  exact Ordered.ext_entries hentries

/-! ## Lists without repetitions -/

theorem eraseDups_eraseDups_append {α : Type} [DecidableEq α] (xs ys : List α) :
    (xs.eraseDups ++ ys.eraseDups).eraseDups = (xs ++ ys).eraseDups := by
  have hself : ∀ xs : List α, xs.eraseDups.eraseDups = xs.eraseDups := by
    intro xs
    induction xs using List.reverseRecOn with
    | nil => rfl
    | append_singleton xs x ih =>
      rw [eraseDups_concat]
      by_cases hmem : x ∈ xs <;> simp [hmem, eraseDups_concat, ih]
  induction ys using List.reverseRecOn with
  | nil => simpa using hself xs
  | append_singleton ys y ih =>
    rw [eraseDups_concat, ← List.append_assoc, eraseDups_concat]
    by_cases hmem : y ∈ ys
    · simp [hmem, ih]
    · simp only [hmem, if_false, ← List.append_assoc, eraseDups_concat, ih, List.mem_append,
        List.mem_eraseDups, or_false]

namespace Properties

/-! ## What a layer shows -/

/-- A value that is not blank. -/
def visible? (value : Option Json) : Option Json := value.filter fun v => !isBlank (some v)

/-- What is inherited from values of which the more specific come first: the first that is not
    blank, or `null` if there are only blank ones. -/
def inherited? (values : List (Option Json)) : Option Json :=
  if values.any Option.isSome then some ((values.findSome? visible?).getD .null) else none

theorem visible?_of_isBlank {value : Option Json} (h : isBlank value = true) :
    visible? value = none := by
  cases value with
  | none => rfl
  | some value => simp [visible?, h]

theorem visible?_of_not_isBlank {value : Json} (h : isBlank (some value) = false) :
    visible? (some value) = some value := by
  simp [visible?, h]

@[simp] theorem visible?_visible? (value : Option Json) :
    visible? (visible? value) = visible? value := by
  simp [visible?, Option.filter_filter]

/-- What a value is that is inherited from others, of which the more specific come first. There is
    one if there is any, the first that is not blank decides, and blank ones are worth `null`. -/
structure Inherited (values : List (Option Json)) (result : Option Json) : Prop where
  isSome : result.isSome ↔ ∃ value ∈ values, value.isSome
  visible : ∀ before value after, values = before ++ some value :: after →
    (∀ earlier ∈ before, isBlank earlier) → isBlank (some value) = false → result = some value
  blank : (∀ value ∈ values, isBlank value) → result.isSome → result = some .null

/-- What is inherited is the same as if it were a single value. -/
theorem visible?_inherited? (values : List (Option Json)) :
    visible? (inherited? values) = values.findSome? visible? := by
  unfold inherited?
  split
  · cases h : values.findSome? visible? with
    | none => rfl
    | some value =>
      obtain ⟨found, -, hfound⟩ := List.exists_of_findSome?_eq_some h
      rw [Option.getD_some, ← hfound, visible?_visible?]
  · next hnone =>
    have hall : values.findSome? visible? = none := by
      rw [List.findSome?_eq_none_iff]
      intro value hmem
      cases value with
      | none => rfl
      | some value => exact absurd (List.any_eq_true.2 ⟨_, hmem, rfl⟩) hnone
    rw [hall]
    rfl

theorem isSome_inherited? (values : List (Option Json)) :
    (inherited? values).isSome = values.any Option.isSome := by
  unfold inherited?
  split
  · next h => rw [h]; rfl
  · next h => simpa using h

theorem inherited_inherited? (values : List (Option Json)) :
    Inherited values (inherited? values) where
  isSome := by rw [isSome_inherited?, List.any_eq_true]
  visible := by
    intro before value after hvalues hbefore hvalue
    have hfirst : values.findSome? visible? = some value := by
      have hnone : before.findSome? visible? = none :=
        List.findSome?_eq_none_iff.2 fun v hv => visible?_of_isBlank (hbefore v hv)
      rw [hvalues, List.findSome?_append, hnone, List.findSome?_cons,
        visible?_of_not_isBlank hvalue]
      rfl
    have hany : values.any Option.isSome = true :=
      List.any_eq_true.2 ⟨some value, by simp [hvalues], rfl⟩
    rw [inherited?, if_pos hany, hfirst, Option.getD_some]
  blank := by
    intro hblank hsome
    have hnone : values.findSome? visible? = none :=
      List.findSome?_eq_none_iff.2 fun v hv => visible?_of_isBlank (hblank v hv)
    rw [isSome_inherited?] at hsome
    rw [inherited?, if_pos hsome, hnone, Option.getD_none]

/-- The more specific values can be put together first. -/
theorem inherited?_cons_inherited? (upper lower : List (Option Json)) :
    inherited? (inherited? upper :: lower) = inherited? (upper ++ lower) := by
  rw [inherited?, inherited?.eq_def (upper ++ lower)]
  simp only [List.any_cons, List.any_append, isSome_inherited?, List.findSome?_cons,
    List.findSome?_append, visible?_inherited?]
  cases upper.findSome? visible? <;> rfl

/-- The less specific values can be put together first. -/
theorem inherited?_append_inherited? (upper lower : List (Option Json)) :
    inherited? (upper ++ [inherited? lower]) = inherited? (upper ++ lower) := by
  rw [inherited?, inherited?.eq_def (upper ++ lower)]
  simp only [List.any_append, List.any_cons, List.any_nil, Bool.or_false, isSome_inherited?,
    List.findSome?_append, List.findSome?_singleton, visible?_inherited?]

/-! ## One layer over another -/

/-- Laying over puts the entries of the upper layer one after the other. Their keys are different,
    so each is chosen against what was below. -/
theorem find?_assign (below above : Properties) (key : String) :
    (assign below above).find? key =
      match above.find? key with
      | some value => some (chosen (below.find? key) value)
      | none => below.find? key := by
  have hfold : ∀ (entries : List (String × Json)) (acc : Properties),
      (entries.map Prod.fst).Nodup →
      (entries.foldl (fun acc e => acc.put e.1 (chosen (acc.find? e.1) e.2)) acc).find? key =
        match entries.lookup key with
        | some value => some (chosen (acc.find? key) value)
        | none => acc.find? key := by
    intro entries
    induction entries with
    | nil => intro acc _; rfl
    | cons e rest ih =>
      intro acc hnodup
      obtain ⟨hnew, hrest⟩ := List.nodup_cons.1 hnodup
      rw [List.foldl_cons, ih _ hrest, List.lookup_cons, Ordered.find?_put]
      by_cases hkey : key = e.1
      · have hlookup : rest.lookup key = none := by
          rw [List.lookup_eq_none_iff]
          intro later hmem
          rw [bne_iff_ne, hkey]
          intro hsame
          exact hnew (hsame ▸ List.mem_map_of_mem hmem)
        rw [hlookup]
        simp [hkey]
      · simp [hkey, beq_eq_false_iff_ne.2 hkey]
  exact hfold above.entries below above.nodup_keys

/-- Keys of the upper layer that are new come at the end, in their order. -/
theorem keys_assign {below : Properties} {names : List String} (above : Properties)
    (h : below.keys = names.eraseDups) :
    (assign below above).keys = (names ++ above.keys).eraseDups := by
  have hfold : ∀ (entries : List (String × Json)) (acc : Properties) (names : List String),
      acc.keys = names.eraseDups →
      (entries.foldl (fun acc e => acc.put e.1 (chosen (acc.find? e.1) e.2)) acc).keys =
        (names ++ entries.map Prod.fst).eraseDups := by
    intro entries
    induction entries with
    | nil => intro acc names h; simpa using h
    | cons e rest ih =>
      intro acc names h
      have hput : (acc.put e.1 (chosen (acc.find? e.1) e.2)).keys =
          (names ++ [e.1]).eraseDups := by
        rw [Ordered.keys_put, h, eraseDups_concat]
        simp only [List.mem_eraseDups]
      rw [List.foldl_cons, ih _ _ hput, List.append_assoc, List.map_cons, List.singleton_append]
  exact hfold above.entries below names h

/-- What is chosen shows what the upper value shows, else what the lower one shows, and it is
    `null` if there is nothing to show. -/
theorem chosen_eq (below : Option Json) (above : Json) :
    chosen below above = ((visible? (some above)).or (visible? below)).getD .null := by
  unfold chosen
  cases habove : isBlank (some above) with
  | false => simp [visible?_of_not_isBlank habove]
  | true =>
    rw [visible?_of_isBlank habove]
    cases below with
    | none => rfl
    | some value =>
      cases hbelow : isBlank (some value) with
      | false => simp [visible?_of_not_isBlank hbelow, hbelow]
      | true => simp [visible?_of_isBlank hbelow, hbelow]

/-- Properties that are put together have no blank values other than `null`. -/
theorem find?_assign_inherited {below above : Properties} {key : String}
    {lower : List (Option Json)} (h : below.find? key = inherited? lower) :
    (assign below above).find? key = inherited? (above.find? key :: lower) := by
  rw [find?_assign, h]
  cases above.find? key with
  | none => rfl
  | some value =>
    simp only [chosen_eq, visible?_inherited?, inherited?.eq_def (some value :: lower),
      List.any_cons, Option.isSome_some, Bool.true_or, if_true, List.findSome?_cons]
    cases visible? (some value) <;> rfl

/-! ## All layers -/

/-- Under each key the last layer that shows something decides. -/
theorem find?_overlay (layers : List Properties) (key : String) :
    (overlay layers).find? key = inherited? (layers.reverse.map (·.find? key)) := by
  have hfold : ∀ (layers : List Properties) (acc : Properties) (lower : List (Option Json)),
      acc.find? key = inherited? lower →
      (layers.foldl assign acc).find? key =
        inherited? (layers.reverse.map (·.find? key) ++ lower) := by
    intro layers
    induction layers with
    | nil => exact fun acc lower h => h
    | cons layer rest ih =>
      intro acc lower h
      rw [List.foldl_cons, ih _ _ (find?_assign_inherited h), List.reverse_cons, List.map_append,
        List.append_assoc, List.map_singleton, List.singleton_append]
  rw [overlay, hfold layers ∅ [] rfl, List.append_nil]

/-- Keys come in the order in which they first appear. -/
theorem keys_overlay (layers : List Properties) :
    (overlay layers).keys = (layers.flatMap Ordered.keys).eraseDups := by
  have hfold : ∀ (layers : List Properties) (acc : Properties) (names : List String),
      acc.keys = names.eraseDups →
      (layers.foldl assign acc).keys = (names ++ layers.flatMap Ordered.keys).eraseDups := by
    intro layers
    induction layers with
    | nil => intro acc names h; simpa using h
    | cons layer rest ih =>
      intro acc names h
      rw [List.foldl_cons, ih _ _ (keys_assign layer h), List.append_assoc, List.flatMap_cons]
  exact hfold layers ∅ [] rfl

/-- Layers can be put together in groups. -/
theorem overlay_append (xs ys : List Properties) :
    overlay [overlay xs, overlay ys] = overlay (xs ++ ys) := by
  refine Ordered.ext_find? ?_ fun key _ => ?_
  · simp [keys_overlay, eraseDups_eraseDups_append]
  · simp only [find?_overlay, List.reverse_cons, List.reverse_nil, List.nil_append, List.map_cons,
      List.map_append, List.map_nil, List.reverse_append, List.singleton_append]
    rw [inherited?_cons_inherited?, inherited?_append_inherited?]

/-! ## Values as their types demand -/

/-- Of several properties with one name the last one counts. -/
theorem find?_merge {context : String} {target result : Properties}
    {properties : List Tiled.Property} (h : merge context target properties = .ok result)
    (key : String) :
    result.find? key =
      match properties.reverse.find? (·.name == key) with
      | some p => convert? p.kind p.value
      | none => target.find? key := by
  induction properties generalizing target with
  | nil =>
    cases h
    rfl
  | cons p rest ih =>
    simp only [merge, List.foldlM_cons, bind_eq_ok] at h
    obtain ⟨next, hnext, hrest⟩ := h
    rw [ih hrest, List.reverse_cons, List.find?_append]
    cases rest.reverse.find? (·.name == key) with
    | some later => rfl
    | none =>
      split at hnext
      · next value hconvert =>
        cases hnext
        rw [Ordered.find?_put]
        by_cases hkey : key = p.name
        · simp [hkey, hconvert]
        · simp [hkey, beq_eq_false_iff_ne.2 (Ne.symm hkey)]
      · cases hnext

end Properties

namespace Entity

open Properties

/-! ## The three tiers of an entity -/

/-- What every object has, whether or not it has properties of its own. -/
def builtIn? (object : Tiled.Object) (key : String) : Option Json :=
  if key = "name" then some (.string object.name)
  else if key = "type" then some (.string object.kind)
  else if key = "x" then some (.ofFloat object.x)
  else if key = "y" then some (.ofFloat object.y)
  else none

/-- What an object says: the last of its own properties of that name, as its type demands, else
    what every object has. -/
def ownValue? (object : Tiled.Object) (key : String) : Option Json :=
  match object.properties.reverse.find? (·.name == key) with
  | some p => convert? p.kind p.value
  | none => builtIn? object key

/-- What the tile says that an object is drawn with. -/
def tileValue? (tile : PlacedTile) (key : String) : Option Json :=
  tile.tileset.tile? tile.tileIndex >>= fun t => t.properties.find? key

/-- What the prototype says of the type that a value names. -/
def prototypeValue? (types : Ordered EntityType) (kind : Option Json) (key : String) :
    Option Json :=
  match kind with
  | some (.string name) => types.find? name >>= fun type => type.prototype.find? key
  | _ => none

theorem find?_ownProperties {object : Tiled.Object} {own : Properties}
    (h : ownProperties object = .ok own) (key : String) :
    own.find? key = ownValue? object key := by
  rw [find?_merge h, ownValue?]
  cases object.properties.reverse.find? (·.name == key) with
  | some p => rfl
  | none =>
    rw [Ordered.find?_ofList]
    simp only [builtIn?, List.reverse_cons, List.reverse_nil, List.nil_append, List.cons_append,
      List.lookup_cons]
    by_cases hname : key = "name"
    · subst hname; rfl
    by_cases htype : key = "type"
    · subst htype; rfl
    by_cases hx : key = "x"
    · subst hx; rfl
    by_cases hy : key = "y"
    · subst hy; rfl
    simp [beq_eq_false_iff_ne.2, hname, htype, hx, hy]

/-- A blank text names no type, and it is never inherited. -/
theorem find?_prototype {withTile : Properties} {values : List (Option Json)}
    (h : withTile.find? "type" = inherited? values) (types : Ordered EntityType) (key : String) :
    (((withTile.text? "type" >>= types.find?).map EntityType.prototype).getD ∅).find? key =
      prototypeValue? types (inherited? values) key := by
  have hnonempty : inherited? values ≠ some (.string "") := by
    intro hempty
    have hvisible := (visible?_inherited? values).symm
    rw [hempty, visible?_of_isBlank rfl] at hvisible
    have hnull : inherited? values = some .null ∨ inherited? values = none := by
      rw [inherited?, hvisible]
      split <;> simp
    rcases hnull with hnull | hnone
    · rw [hempty] at hnull
      cases hnull
    · rw [hempty] at hnone
      cases hnone
  have hlookup : (withTile.text? "type" >>= types.find?) =
      match inherited? values with
      | some (.string name) => types.find? name
      | _ => none := by
    cases htext : withTile.text? "type" with
    | some name =>
      obtain ⟨hfind, -⟩ := text?_eq_some.1 htext
      rw [← h, hfind]
      rfl
    | none =>
      split
      · next name hname =>
        have hsome : withTile.text? "type" = some name :=
          text?_eq_some.2 ⟨h.trans hname, fun hempty => hnonempty (hempty ▸ hname)⟩
        rw [htext] at hsome
        cases hsome
      · rfl
  rw [hlookup]
  unfold prototypeValue?
  cases inherited? values with
  | none => rfl
  | some kind =>
    cases kind with
    | string name =>
      dsimp only
      cases types.find? name <;> rfl
    | _ => rfl

/-- The properties of an entity, tier by tier. -/
theorem find?_compose {types : Ordered EntityType} {object : Tiled.Object} {tile : PlacedTile}
    {e : Entity} (h : compose types object tile = .ok e) (key : String) :
    e.properties.find? key = inherited? [ownValue? object key, tileValue? tile key,
      prototypeValue? types (inherited? [ownValue? object "type", tileValue? tile "type"]) key] := by
  obtain ⟨own, hown, he⟩ := bind_eq_ok.1 h
  cases he
  have htile : ∀ key, (((tile.tileset.tile? tile.tileIndex).map Tile.properties).getD ∅).find? key =
      tileValue? tile key := by
    intro key
    rw [tileValue?]
    cases tile.tileset.tile? tile.tileIndex <;> rfl
  have hwithTile : ∀ key, (overlay
      [((tile.tileset.tile? tile.tileIndex).map Tile.properties).getD ∅, own]).find? key =
        inherited? [ownValue? object key, tileValue? tile key] := by
    intro key
    rw [find?_overlay, ← find?_ownProperties hown, ← htile]
    rfl
  rw [find?_overlay]
  simp only [List.reverse_cons, List.reverse_nil, List.nil_append, List.cons_append,
    List.map_cons, List.map_nil, hwithTile, find?_prototype (hwithTile "type"),
    inherited?_cons_inherited?]

end Entity

/-! ## The rule -/

section Rule

open Properties Entity

/-- Layers laid over each other have all their keys, in the order in which these first appear, and
    under each key what is inherited. Laying over is associative. An entity inherits from its
    object, then from its tile, then from the prototype of the type that these two name. -/
theorem properties_inherited :
    (∀ (layers : List Properties),
      (∀ key, (overlay layers).contains key ↔ ∃ layer ∈ layers, layer.contains key) ∧
      (∀ key, Inherited (layers.reverse.map (·.find? key)) ((overlay layers).find? key)) ∧
      (overlay layers).keys = (layers.flatMap Ordered.keys).eraseDups) ∧
    (∀ xs ys : List Properties, overlay [overlay xs, overlay ys] = overlay (xs ++ ys)) ∧
    ∀ (types : Ordered EntityType) (object : Tiled.Object) (tile : PlacedTile) (e : Entity),
      compose types object tile = .ok e →
      e.tile = tile ∧
      ∃ kind, Inherited [ownValue? object "type", tileValue? tile "type"] kind ∧
        ∀ key, Inherited [ownValue? object key, tileValue? tile key,
          prototypeValue? types kind key] (e.properties.find? key) := by
  refine ⟨fun layers => ⟨fun key => ?_, fun key => ?_, keys_overlay layers⟩, overlay_append, ?_⟩
  · simp [Ordered.contains_iff, keys_overlay]
  · rw [find?_overlay]
    exact inherited_inherited? _
  · intro types object tile e h
    refine ⟨?_, _, inherited_inherited? _, fun key => ?_⟩
    · obtain ⟨own, -, he⟩ := bind_eq_ok.1 h
      cases he
      rfl
    · rw [find?_compose h]
      exact inherited_inherited? _

/-- A hen that does not say what it is, and that stands still. -/
def lazyHen : Tiled.Object where
  id := 1
  name := "hen"
  kind := ""
  x := Float.ofBits 0
  y := Float.ofBits 0
  width := Float.ofBits 0
  height := Float.ofBits 0
  rotation := Float.ofBits 0
  gid := some 1
  point := false
  ellipse := false
  polygon := none
  polyline := none
  properties := [⟨"speed", "int", .ofInt 0⟩, ⟨"voice", "string", .string ""⟩]

/-- The tile that says that it is a bird. -/
def birdTile : PlacedTile where
  tileset :=
    { name := "birds", index := 0, tileCount := 1,
      tiles := [(0, ⟨Ordered.ofList [("type", .string "bird"), ("voice", .null)], none⟩)] }
  tileIndex := 0
  flipX := false
  flipY := false
  flipDiagonal := false

/-- Birds are fast and have two wings. -/
def birdTypes : Ordered EntityType :=
  Ordered.ofList [("bird",
    ⟨0, Ordered.ofList [("speed", .ofInt 9), ("wings", .ofInt 2)], ⟨"birds", ∅, none⟩⟩)]

/-- The wings come from the type that the tile names, zero is a speed, and a voice that is blank
    everywhere is `null`. -/
theorem lazyHen_inherits : ∃ e, Entity.compose birdTypes lazyHen birdTile = .ok e ∧
    e.tile = birdTile ∧
    e.properties.find? "wings" = some (.ofInt 2) ∧
    e.properties.find? "speed" = some (.ofInt 0) ∧
    e.properties.find? "voice" = some .null := by
  obtain ⟨e, he⟩ : ∃ e, Entity.compose birdTypes lazyHen birdTile = .ok e :=
    exists_of_isOk (by decide +kernel)
  obtain ⟨htile, kind, hkind, hvalue⟩ := properties_inherited.2.2 birdTypes lazyHen birdTile e he
  have hbird : kind = some (.string "bird") :=
    hkind.visible [some (.string "")] (.string "bird") [] rfl (by simp [isBlank]) rfl
  subst hbird
  refine ⟨e, he, htile, ?_, ?_, ?_⟩
  · exact (hvalue "wings").visible [none, none] (.ofInt 2) [] rfl (by simp [isBlank]) rfl
  · exact (hvalue "speed").visible [] (.ofInt 0) [none, some (.ofInt 9)] rfl (by simp) rfl
  · have hvoice : Inherited [some (.string ""), some .null, none] (e.properties.find? "voice") :=
      hvalue "voice"
    exact hvoice.blank (by simp [isBlank]) (hvoice.isSome.2 (by simp))

end Rule

end GameBundle
