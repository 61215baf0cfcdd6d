import GameBundle.Build.Maps
import GameBundle.Proofs.Build.Compiling

set_option autoImplicit false

/-! # The scripts that a map names

The map file and the manifest name the scripts of the events of a map, the manifest alone those of
its directions. Here is which name counts, and that its script is compiled. -/

namespace GameBundle

/-! ## Which script an event runs -/

/-- The script that the map file gives for an event: the last one that is not empty. -/
def Tiled.Map.eventScript? (tiled : Tiled.Map) (event : String) : Option String :=
  tiled.properties.reverse.findSome? fun p =>
    if p.name = event then nonEmpty? p.value.asString? else none

/-- The script that the manifest gives for an event. -/
def MapSettings.eventScript? (settings : MapSettings) (event : String) : Option String :=
  match event with
  | "on_load" => nonEmpty? settings.onLoad
  | "on_tick" => nonEmpty? settings.onTick
  | "on_look" => nonEmpty? settings.onLook
  | _ => none

theorem lookup_ofFile (properties : List Tiled.Property) {event : String} (h : event ∈ mapEvents) :
    (properties.filterMap fun p =>
      if p.name ∈ mapEvents then (nonEmpty? p.value.asString?).map fun script => (p.name, script)
      else none).lookup event =
    properties.findSome? fun p => if p.name = event then nonEmpty? p.value.asString? else none := by
  induction properties with
  | nil => rfl
  | cons p rest ih =>
    rw [List.filterMap_cons, List.findSome?_cons]
    by_cases hname : p.name = event
    · rw [if_pos (hname ▸ h), if_pos hname]
      cases nonEmpty? p.value.asString? with
      | none => exact ih
      | some script => simp [hname]
    · rw [if_neg hname]
      split
      · exact ih
      · next entry hentry =>
        have hkey : entry.1 ≠ event := by
          split at hentry
          · obtain ⟨script, -, rfl⟩ := Option.map_eq_some_iff.1 hentry
            exact hname
          · cases hentry
        rw [List.lookup_cons, beq_eq_false_iff_ne.2 hkey.symm]
        exact ih

theorem lookup_ofManifest (settings : MapSettings) {event : String} (h : event ∈ mapEvents) :
    ((mapEvents.zip [settings.onLoad, settings.onTick, settings.onLook]).filterMap
      fun (event, script) => (nonEmpty? script).map fun script => (event, script)).reverse.lookup
        event = settings.eventScript? event := by
  have hzip : mapEvents.zip [settings.onLoad, settings.onTick, settings.onLook] =
    [("on_load", settings.onLoad), ("on_tick", settings.onTick),
      ("on_look", settings.onLook)] := rfl
  rw [hzip]
  simp only [mapEvents, List.mem_cons, List.not_mem_nil, or_false] at h
  simp only [MapSettings.eventScript?, List.filterMap_cons, List.filterMap_nil]
  rcases h with rfl | rfl | rfl <;>
    cases nonEmpty? settings.onLoad <;> cases nonEmpty? settings.onTick <;>
      cases nonEmpty? settings.onLook <;> simp [List.lookup_cons]

/-- An event that has a script in the file and in the manifest is refused; otherwise the one it has
    counts. -/
theorem eventScripts_eq_ok {tiled : Tiled.Map} {settings : MapSettings} {map : String}
    {scripts : List (String × String)} (h : eventScripts tiled settings map = .ok scripts)
    {event : String} (hevent : event ∈ mapEvents) :
    (tiled.eventScript? event = none ∨ settings.eventScript? event = none) ∧
      scripts.reverse.lookup event =
        (tiled.eventScript? event <|> settings.eventScript? event) := by
  have hfile := lookup_ofFile tiled.properties.reverse hevent
  have hmanifest := lookup_ofManifest settings hevent
  rw [List.filterMap_reverse, ← Tiled.Map.eventScript?] at hfile
  unfold eventScripts at h
  simp only at h
  split at h
  · cases h
  · next hclash =>
    obtain rfl := pure_eq_ok.1 h
    have hone : tiled.eventScript? event = none ∨ settings.eventScript? event = none := by
      rcases hf : tiled.eventScript? event with _ | ofFile
      · exact Or.inl rfl
      · rcases hm : settings.eventScript? event with _ | ofManifest
        · exact Or.inr rfl
        · rw [hf] at hfile
          rw [hm] at hmanifest
          -- a script in both places would have been found
          have hinFile := List.mem_reverse.1 (mem_of_lookup hfile)
          have hinManifest := List.mem_reverse.1 (mem_of_lookup hmanifest)
          have hnone := List.find?_eq_none.1 hclash _ hinManifest
          exact absurd (List.any_eq_true.2 ⟨_, hinFile, by simp⟩) hnone
    refine ⟨hone, ?_⟩
    rw [List.reverse_append, List.lookup_append, hmanifest, hfile]
    rcases hone with hnone | hnone <;> rw [hnone]
    · cases settings.eventScript? event <;> rfl
    · cases tiled.eventScript? event <;> rfl

/-! ## Compiling them -/

variable {input : Input} {first : Nat} {s t : MapState}

/-- A script under a key got a number. -/
def Compiled (script : String × String) (number : String × UInt16) (means : Meaning) :
    Prop :=
  number.1 = script.1 ∧ means script.2 number.2

theorem compileAll_spec {scripts : List (String × String)} {numbers : List (String × UInt16)}
    (hs : Numbered first s) (h : Yields (compileAll input scripts) s numbers t) :
    Advances input first [] s t ∧
      List.Forall₂ (fun script number => Compiled script number t.map.meaning) scripts numbers := by
  refine mapM_spec Compiled (fun _ _ _ _ hkeeps h => ⟨h.1, hkeeps _ _ h.2⟩) ?_ hs h
  intro script _ s number t hs hnumber
  simp only [yields_bind, yields_pure] at hnumber
  obtain ⟨value, _, hvalue, rfl, rfl⟩ := hnumber
  obtain ⟨hst, hfind⟩ := compileScript_spec script.2 s value _ hs hvalue
  exact ⟨hst, rfl, hfind⟩

theorem lookup_of_compiled (key : String) {scripts : List (String × String)}
    {numbers : List (String × UInt16)} {means : Meaning}
    (h : List.Forall₂ (fun script number => Compiled script number means) scripts numbers) :
    match scripts.lookup key with
    | none => numbers.lookup key = none
    | some script => ∃ number, numbers.lookup key = some number ∧ means script number := by
  induction h with
  | nil => rfl
  | @cons script number scripts numbers hcompiled _ ih =>
    obtain ⟨k, script⟩ := script
    obtain ⟨k', number⟩ := number
    obtain ⟨rfl, hfind⟩ := hcompiled
    by_cases hkey : key = k'
    · subst hkey
      simpa using hfind
    · simp only [List.lookup_cons, beq_eq_false_iff_ne.2 hkey]
      exact ih

/-- The number of the script of an event, zero for an event without one. -/
def EventNumber (tiled : Tiled.Map) (settings : MapSettings) (events : Ordered UInt16)
    (means : Meaning) (event : String) : Prop :=
  match tiled.eventScript? event <|> settings.eventScript? event with
  | none => (events.find? event).getD 0 = 0
  | some script => means script ((events.find? event).getD 0)

theorem EventNumber.mono {tiled : Tiled.Map} {settings : MapSettings} {events : Ordered UInt16}
    {m n : Meaning} {event : String} (h : EventNumber tiled settings events m event) (hkeeps : Keeps m n) :
    EventNumber tiled settings events n event := by
  unfold EventNumber at *
  split at h
  · exact h
  · exact hkeeps _ _ h

/-- The last script that is compiled for an event counts, as the last one that is named does. -/
theorem eventNumber_of_compiled {tiled : Tiled.Map} {settings : MapSettings} {map event : String}
    {scripts : List (String × String)} {numbers : List (String × UInt16)} {means : Meaning}
    (hscripts : eventScripts tiled settings map = .ok scripts)
    (hcompiled : List.Forall₂ (fun script number => Compiled script number means) scripts numbers)
    (hevent : event ∈ mapEvents) :
    (tiled.eventScript? event = none ∨ settings.eventScript? event = none) ∧
      EventNumber tiled settings (Ordered.ofList numbers) means event := by
  obtain ⟨hone, hscript⟩ := eventScripts_eq_ok hscripts hevent
  refine ⟨hone, ?_⟩
  have hlookup := lookup_of_compiled event (List.forall₂_reverse_iff.2 hcompiled)
  rw [hscript] at hlookup
  unfold EventNumber
  rw [Ordered.find?_ofList]
  cases hsource : tiled.eventScript? event <|> settings.eventScript? event with
  | none =>
    rw [hsource] at hlookup
    rw [hlookup]
    rfl
  | some script =>
    rw [hsource] at hlookup
    obtain ⟨value, hvalue, hfind⟩ := hlookup
    rw [hvalue]
    exact hfind

/-- On a map without scripts, the script that does nothing is listed and not compiled. -/
theorem compileScript_null {number : UInt16} (hnumbers : s.map.scriptNumbers = ∅)
    (h : Yields (compileScript input nullScript) s number t) :
    s.map.nextScript = .ok number ∧ t = ⟨s.map.listScript nullScript 0 number, s.project⟩ := by
  rw [compileScript_eq] at h
  simp only [scriptNumber, yields_bind, yields_get] at h
  obtain ⟨_, _, ⟨rfl, rfl⟩, h⟩ := h
  have hnone : (∅ : Ordered UInt16).find? nullScript = none := rfl
  rw [MapContext.scriptNumber?, hnumbers, hnone] at h
  simp only [if_true] at h
  exact yields_listScript.1 h

/-- The map starts with the script that does nothing; then come the scripts of the events. -/
theorem compileEvents_spec {tiled : Tiled.Map} {settings : MapSettings} {events : Ordered UInt16}
    (hpos : 0 < s.project.tables.count .scripts)
    (hsmall : s.project.tables.count .scripts ≤ UInt16.size)
    (hnull : (scriptNames s.project.tables)[0]? = some nullScript) (hscripts : s.map.scripts = #[])
    (hnumbers : s.map.scriptNumbers = ∅)
    (h : Yields (compileEvents input tiled settings) s events t) :
    ∃ number, Advances input (s.project.tables.count .scripts) []
        ⟨s.map.listScript nullScript 0 number, s.project⟩ t ∧
      ∀ event ∈ mapEvents, (tiled.eventScript? event = none ∨ settings.eventScript? event = none) ∧
        EventNumber tiled settings events t.map.meaning event := by
  simp only [compileEvents, yields_bind, yields_get, yields_except, liftM_eq_ok, yields_pure] at h
  obtain ⟨number, _, hstart, _, _, ⟨rfl, rfl⟩, scripts, _, ⟨hevents, rfl⟩, numbers, _, hcompiled,
    rfl, rfl⟩ := h
  obtain ⟨hnext, rfl⟩ := compileScript_null hnumbers hstart
  have hstarted := Numbered.start hpos hsmall hnull hscripts hnumbers hnext
  obtain ⟨hadv, hall⟩ := compileAll_spec hstarted hcompiled
  exact ⟨number, hadv, fun event hevent => eventNumber_of_compiled hevents hall hevent⟩

end GameBundle
