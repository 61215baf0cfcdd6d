import GameBundle.Proofs.Build.MapsSideBySide
import GameBundle.Proofs.Build.Run

set_option autoImplicit false

/-! # Unused scripts

A script that nothing in a project mentions is never compiled. It takes part in a build only by its
variables, which are stored whether the script is used or not, and by the size of the table, which
bounds the rounds of copies and the compilations in progress. Both bounds are large enough without
the script, so the bundle is the same with it, and so is the error if there is no bundle. -/

namespace GameBundle

variable {input : Input} {fresh : String}

/-! ## What a project mentions -/

/-- Some action, dialog or map of the project has the text in a place where it can be the name of a
    script. -/
inductive Mentions (input : Input) : String → Prop
  /-- An argument of an action. -/
  | action {name : String} {script : Script} {a : Action} {key text : String}
      (hscript : input.definitions.scripts.find? name = some script) (ha : a ∈ script)
      (htext : a.args.find? key = some (.string text)) : Mentions input text
  /-- The script of a response. -/
  | response {name : String} {screens : List Screen} {screen : Screen} {r : Response}
      (hscreens : input.definitions.dialogs.find? name = some screens) (hscreen : screen ∈ screens)
      (hr : r ∈ screen.options) : Mentions input r.script
  /-- The script of a response to a serial dialog. -/
  | option {name : String} {dialog : SerialDialog} {r : Response}
      (hdialog : input.definitions.serialDialogs.find? name = some dialog)
      (hr : r ∈ dialog.options) : Mentions input r.script
  /-- The script of a typed answer. -/
  | typed {name : String} {dialog : SerialDialog} {options : Ordered String}
      {answer : String × String}
      (hdialog : input.definitions.serialDialogs.find? name = some dialog)
      (hoptions : dialog.textOptions = some options) (hanswer : answer ∈ options.entries) :
      Mentions input answer.2
  /-- A script of a map in the manifest. -/
  | settings {map : String × MapSettings} {script : String}
      (hmap : map ∈ input.definitions.maps.entries) (hscript : script ∈ map.2.scripts) :
      Mentions input script
  /-- A property of a type of objects. -/
  | objectType {type : ObjectTypeDef} {p : Tiled.Property} {text : String}
      (htype : type ∈ input.definitions.objectTypes) (hp : p ∈ type.properties)
      (htext : p.value = .string text) : Mentions input text
  /-- A property of a tile. -/
  | tile {name : String} {file : Tiled.TilesetFile} {tile : Tiled.TileDef} {p : Tiled.Property}
      {text : String} (hfile : readJson input.source Tiled.TilesetFile.decode name = .ok file)
      (htile : tile ∈ file.tiles) (hp : p ∈ tile.properties) (htext : p.value = .string text) :
      Mentions input text
  /-- A property of a map file. -/
  | map {name : String} {tiled : Tiled.Map} {p : Tiled.Property} {text : String}
      (hfile : readJson input.source Tiled.Map.decode name = .ok tiled)
      (hp : p ∈ tiled.properties) (htext : p.value = .string text) : Mentions input text
  /-- A property of an object. -/
  | object {name : String} {tiled : Tiled.Map} {object : Tiled.Object} {p : Tiled.Property}
      {text : String} (hfile : readJson input.source Tiled.Map.decode name = .ok tiled)
      (hobject : object ∈ tiled.objects) (hp : p ∈ object.properties)
      (htext : p.value = .string text) : Mentions input text

/-! ## With the script and without -/

/-- A build with a further script beside one without. -/
def withScript (fresh : String) : Comparison where
  extra := []
  Common := fun name => name ≠ fresh

theorem SerialDialog.script_of_mem_responses {dialog : SerialDialog} {r : Response}
    (h : r ∈ dialog.answers.responses) :
    r ∈ dialog.options ∨ ∃ options, dialog.textOptions = some options ∧
      ∃ answer ∈ options.entries, r.script = answer.2 := by
  unfold SerialDialog.answers at h
  split at h
  · split at h
    · cases h
    · exact Or.inl h
  · obtain ⟨answer, hanswer, rfl⟩ := List.mem_map.1 h
    cases htyped : dialog.textOptions with
    | none =>
      rw [htyped] at hanswer
      cases hanswer
    | some options =>
      rw [htyped] at hanswer
      exact Or.inr ⟨options, rfl, answer, hanswer, rfl⟩

theorem fits_withScript (hfresh : ¬Mentions input fresh) : (withScript fresh).Fits input where
  objectTypes type htype p hp script hscript := by
    rintro rfl
    exact hfresh (.objectType htype hp hscript)
  tilesets name file hfile tile htile p hp script hscript := by
    rintro rfl
    exact hfresh (.tile hfile htile hp hscript)
  maps name tiled hfile := by
    refine ⟨fun p hp script hscript => ?_, fun object hobject p hp script hscript => ?_⟩
    · rintro rfl
      exact hfresh (.map hfile hp hscript)
    · rintro rfl
      exact hfresh (.object hfile hobject hp hscript)
  settings entry hentry script hscript := by
    rintro rfl
    exact hfresh (.settings hentry hscript)
  dialogs name screens hscreens screen hscreen r hr := by
    intro hname
    exact hfresh (hname ▸ .response hscreens hscreen hr)
  serialDialogs name dialog hdialog r hr := by
    intro hname
    rcases SerialDialog.script_of_mem_responses hr with hr | ⟨options, hoptions, answer, hmem, heq⟩
    · exact hfresh (hname ▸ .option hdialog hr)
    · exact hfresh (hname ▸ heq ▸ .typed hdialog hoptions hmem)

section

variable {scripts : Ordered Script} {before after : List (String × Script)} {body : Script}
  (hold : input.definitions.scripts.entries = before ++ after)
  (hnew : scripts.entries = before ++ (fresh, body) :: after)
include hold hnew

theorem knows_withScript (hnull : fresh ≠ nullScript) (hfresh : ¬Mentions input fresh) :
    (withScript fresh).Knows input.definitions.scripts scripts := by
  have hsame : ∀ name, name ≠ fresh →
      scripts.find? name = input.definitions.scripts.find? name := by
    intro name hname
    rw [Ordered.find?, Ordered.find?, hold, hnew, List.lookup_append, List.lookup_append,
      List.lookup_cons, beq_eq_false_iff_ne.2 hname]
  have htable : ∀ name script, input.definitions.scripts.find? name = some script →
      ∀ a ∈ script, a.NamesOnly fun name => name ≠ fresh := by
    rintro name script hscript a ha key text htext rfl
    exact hfresh (.action hscript ha htext)
  have hsize : input.definitions.scripts.size ≤ scripts.size := by
    rw [Ordered.size, Ordered.size, hold, hnew, List.length_append, List.length_append]
    exact Nat.add_le_add_left (Nat.le_succ _) _
  exact {
    null := hnull.symm
    find? := hsame
    copies := fun name script hname hscript => expandCopies_agree hsame htable hsize hname hscript
    names := fun name script actions _ hscript h => by
      obtain ⟨expanded, hrounds, hresult⟩ := bind_eq_ok.1 h
      cases expanded with
      | none => cases hresult
      | some expanded =>
        cases pure_eq_ok.1 hresult
        exact expandRounds_all htable (htable name script hscript) hrounds }

/-- The variables of the other scripts are the same, in the same order. -/
theorem namedVariables_withScript
    (hbody : ∀ a ∈ body, ∀ key ∈ ["variable", "source"], ∀ text,
      a.args.find? key ≠ some (.string text)) :
    namedVariables scripts = namedVariables input.definitions.scripts := by
  have hnone : body.flatMap (fun a => ["variable", "source"].filterMap fun key =>
      nonEmpty? (a.args.find? key >>= Json.asString?)) = [] := by
    rw [List.flatMap_eq_nil_iff]
    intro a ha
    rw [List.filterMap_eq_nil_iff]
    intro key hkey
    by_contra hsome
    obtain ⟨text, htext⟩ := Option.ne_none_iff_exists'.1 hsome
    obtain ⟨value, hvalue, hstring⟩ := Option.bind_eq_some_iff.1 (nonEmpty?_eq_some htext)
    rw [Json.asString?_eq_some.1 hstring] at hvalue
    exact hbody a ha key hkey text hvalue
  simp only [namedVariables, Ordered.values, hold, hnew, List.map_append, List.map_cons,
    List.flatten_append, List.flatten_cons, List.flatMap_append, hnone, List.nil_append]

end

/-! ## The main result -/

/-- The bundle of a project, or the error if there is none. -/
def Input.bundle (input : Input) : Except Failure Bytes := do
  let tables ← build input
  Bundle.assemble tables

/-- **A script that is not mentioned costs nothing.** It may be put anywhere into the table of
    scripts: if it names no variable, the build comes to the same bundle or to the same error. -/
theorem bundle_unused_script {scripts : Ordered Script} {before after : List (String × Script)}
    {body : Script} (hold : input.definitions.scripts.entries = before ++ after)
    (hnew : scripts.entries = before ++ (fresh, body) :: after) (hnull : fresh ≠ nullScript)
    (hfresh : ¬Mentions input fresh)
    (hbody : ∀ a ∈ body, ∀ key ∈ ["variable", "source"], ∀ text,
      a.args.find? key ≠ some (.string text)) :
    Input.bundle { input with definitions := { input.definitions with scripts } } =
      input.bundle := by
  have hbuild : build (input.replace input.definitions.maps scripts) = build input :=
    build_together (fits_withScript hfresh) (knows_withScript hold hnew hnull hfresh) rfl
      (namedVariables_withScript hold hnew hbody)
  change (build (input.replace input.definitions.maps scripts) >>= _) = _
  rw [hbuild]
  rfl

/-- A script that would be refused if anything mentioned it: it copies itself. -/
def idle : Script := [⟨copyScript, .ofList [("script", .string "idle")]⟩]

theorem readJson_twoMaps {α : Type} {d : Json.Decoder α} {name : String} {a : α}
    (h : readJson twoMaps.source d name = .ok a) :
    (String.fromUTF8? townFile.toUTF8 >>= Json.Decode.run d) = some a := by
  obtain ⟨contents, hcontents, hvalue⟩ := bind_eq_ok.1 h
  cases hcontents
  split at hvalue
  · next hrun =>
    cases hvalue
    exact hrun
  · cases hvalue

theorem not_mentions_idle : ¬Mentions twoMaps "idle" := by
  have hscripts : twoMaps.definitions.scripts.entries.all fun e => e.2.all fun a =>
      a.args.entries.all fun arg => arg.2.asString? != some "idle" := by decide +kernel
  have hserialDialogs : twoMaps.definitions.serialDialogs.entries.all fun e =>
      e.2.textOptions.isNone && e.2.options.all fun r => r.script != "idle" := by decide +kernel
  have hmaps : twoMaps.definitions.maps.entries.all fun e => e.2.scripts.all (· != "idle") := by
    decide +kernel
  have htilesets : (String.fromUTF8? townFile.toUTF8 >>=
      Json.Decode.run Tiled.TilesetFile.decode).isNone := by decide +kernel
  have htiled : (String.fromUTF8? townFile.toUTF8 >>= Json.Decode.run Tiled.Map.decode).all
      fun tiled => tiled.objects.isEmpty &&
        tiled.properties.all fun p => p.value.asString? != some "idle" := by decide +kernel
  generalize htext : "idle" = text
  intro h
  cases h with
  | action hscript ha hvalue =>
    subst htext
    have hentry := List.all_eq_true.1 hscripts _ (Ordered.mem_entries hscript)
    have harg := List.all_eq_true.1 (List.all_eq_true.1 hentry _ ha) _ (Ordered.mem_entries hvalue)
    simp [Json.asString?] at harg
  | response hscreens => cases hscreens
  | option hdialog hr =>
    have hentry := List.all_eq_true.1 hserialDialogs _ (Ordered.mem_entries hdialog)
    rw [Bool.and_eq_true] at hentry
    have hother := List.all_eq_true.1 hentry.2 _ hr
    simp [htext] at hother
  | typed hdialog hoptions =>
    have hentry := List.all_eq_true.1 hserialDialogs _ (Ordered.mem_entries hdialog)
    rw [Bool.and_eq_true, hoptions] at hentry
    cases hentry.1
  | settings hmap hscript =>
    subst htext
    have hother := List.all_eq_true.1 (List.all_eq_true.1 hmaps _ hmap) _ hscript
    simp at hother
  | objectType htype => cases htype
  | tile hfile =>
    rw [readJson_twoMaps hfile] at htilesets
    cases htilesets
  | map hfile hp hvalue =>
    subst htext
    rw [readJson_twoMaps hfile, Option.all_some, Bool.and_eq_true] at htiled
    have hother := List.all_eq_true.1 htiled.2 _ hp
    rw [hvalue] at hother
    simp [Json.asString?] at hother
  | object hfile hobject =>
    rw [readJson_twoMaps hfile, Option.all_some, Bool.and_eq_true] at htiled
    rw [List.isEmpty_iff.1 htiled.1] at hobject
    cases hobject

/-- The scripts of the example behind the idle one. -/
def idleFirst : Ordered Script where
  entries := ("idle", idle) :: twoMaps.definitions.scripts.entries
  nodup_keys := by decide +kernel

/-- The idle script is never expanded. -/
theorem twoMaps_idle_costs_nothing : ∃ bytes, twoMaps.bundle = .ok bytes ∧
    Input.bundle { twoMaps with definitions := { twoMaps.definitions with scripts := idleFirst } } =
      .ok bytes := by
  have hold : twoMaps.definitions.scripts.entries = [] ++ twoMaps.definitions.scripts.entries := rfl
  have hbody : ∀ a ∈ idle, ∀ key ∈ ["variable", "source"], ∀ text,
      a.args.find? key ≠ some (.string text) := by
    intro a ha key hkey text h
    obtain rfl := List.mem_singleton.1 ha
    rcases List.mem_pair.1 hkey with rfl | rfl <;> cases h
  obtain ⟨bytes, hbytes⟩ : ∃ bytes, twoMaps.bundle = .ok bytes :=
    exists_of_isOk (by decide +kernel)
  refine ⟨bytes, hbytes, ?_⟩
  rw [bundle_unused_script hold rfl (by decide) not_mentions_idle hbody, hbytes]

end GameBundle
