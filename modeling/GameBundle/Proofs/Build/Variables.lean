import GameBundle.Proofs.Build.Finished
import GameBundle.Proofs.Build.Pools
import GameBundle.Proofs.Build.VariableNames
import GameBundle.Proofs.Text.Tokens

set_option autoImplicit false

/-! # The look-ahead fixes the variables

The first pass of a build stores every variable that an action names. There is no map yet, so its
tokens can only be reserved names and variables that came before it. Later each of these texts is
stored once more, when an action is encoded on some map. It is made from its tokens with the same
result then, since nothing loses its number in between, so it is found.

`VariablesFixed` says what is left to change, and every operation of the passes that follow keeps
it: the one text the look-ahead leaves out is the empty one. -/

namespace GameBundle

variable {input : Input}

/-! ## What the look-ahead stores -/

/-- All variables come from these names, in this order: `values` are the names with their tokens
    replaced, and a value is stored where it comes up first. -/
structure LookedAhead (names values : List String) (p : Project) : Prop where
  texts : TextsStored p
  replaced : List.Forall₂ (fun name value =>
    templatize none p.pools.gameVariables name = .ok value) names values
  keys : p.pools.gameVariables.keys = values.eraseDups

/-- One more name is looked at. -/
theorem LookedAhead.next {names values : List String} {name : String} {p q : Project}
    {index : UInt16} (h : LookedAhead names values p)
    (hintern : Yields (intern .gameVariables none name) p index q) :
    ∃ value, LookedAhead (names ++ [name]) (values ++ [value]) q := by
  have htexts : TextsStored q := by
    have hstep := h.texts.operation (.text .gameVariables none name)
    rwa [show outcome (Operation.text .gameVariables none name).step p = (.ok index, q) from
      hintern] at hstep
  obtain ⟨value, hvalue, ⟨hfind, rfl⟩ | ⟨hnew, -, -, -, rfl⟩⟩ := intern_succeeds hintern
  · have hmem : value ∈ values := by
      rw [← List.mem_eraseDups, ← h.keys]
      exact Ordered.mem_keys hfind
    refine ⟨value, htexts, List.rel_append h.replaced (.cons hvalue .nil), ?_⟩
    rw [eraseDups_concat, if_pos hmem, h.keys]
  · change p.pools.gameVariables.find? value = none at hnew
    have hmem : value ∉ values := by
      rw [← List.mem_eraseDups, ← h.keys]
      intro hkey
      obtain ⟨found, hfound⟩ := Ordered.exists_find? hkey
      rw [hnew] at hfound
      cases hfound
    have hstays : p.pools.gameVariables.StaysIn
        (p.store .gameVariables value).pools.gameVariables := .put hnew
    refine ⟨value, htexts, List.rel_append ?_ (.cons (templatize_mono hstays hvalue) .nil), ?_⟩
    · exact h.replaced.imp fun name value hreplaced => templatize_mono hstays hreplaced
    · rw [eraseDups_concat, if_neg hmem, ← h.keys]
      change (p.pools.gameVariables.put value (p.next _)).keys = _
      rw [Ordered.keys, Ordered.entries_put _ hnew, List.map_append]
      rfl

/-- The induction is on the names that have been looked at. -/
theorem lookedAhead_of_yields {names : List String} {p : Project}
    (h : Yields (names.forM fun name => do let _ ← intern .gameVariables none name) {} () p) :
    ∃ values, LookedAhead names values p := by
  induction names using List.reverseRecOn generalizing p with
  | nil =>
    obtain rfl := yields_forM_nil.1 h
    exact ⟨[], .empty, .nil, rfl⟩
  | append_singleton names name ih =>
    obtain ⟨q, hbefore, hlast⟩ := yields_forM_append.1 h
    obtain ⟨r, hname, hnil⟩ := yields_forM_cons.1 hlast
    obtain rfl := yields_forM_nil.1 hnil
    obtain ⟨index, t, hintern, hpure⟩ := yields_bind.1 hname
    obtain ⟨-, rfl⟩ := yields_pure.1 hpure
    obtain ⟨values, hvalues⟩ := ih hbefore
    obtain ⟨value, hnext⟩ := hvalues.next hintern
    exact ⟨values ++ [value], hnext⟩

namespace LookedAhead

variable {names values : List String} {p₀ : Project} (h : LookedAhead names values p₀)
include h

theorem exists_value {name : String} (hname : name ∈ names) :
    ∃ value ∈ values, templatize none p₀.pools.gameVariables name = .ok value := by
  obtain ⟨i, hi⟩ := List.getElem?_of_mem hname
  obtain ⟨value, hvalue, hreplaced⟩ := forall₂_getElem? h.replaced hi
  exact ⟨value, List.mem_of_getElem? hvalue, hreplaced⟩

/-- A variable has the number of values that came up before it for the first time. -/
theorem find?_value {value : String} (hvalue : value ∈ values) :
    ∃ index, p₀.pools.gameVariables.find? value = some index ∧
      index.toNat = values.eraseDups.idxOf value := by
  rw [← List.mem_eraseDups] at hvalue
  have hlt := List.idxOf_lt_length_iff.2 hvalue
  have hsmall : values.eraseDups.idxOf value < UInt16.size := by
    have hcount := h.texts.limit
    rw [← h.texts.size_gameVariables, Ordered.size, ← List.length_map (f := Prod.fst)] at hcount
    change p₀.pools.gameVariables.keys.length ≤ _ at hcount
    rw [h.keys, variableLimit] at hcount
    exact Nat.lt_of_lt_of_le hlt (Nat.le_trans hcount (by decide))
  have hindex := UInt16.toNat_ofNat_of_lt' hsmall
  refine ⟨UInt16.ofNat (values.eraseDups.idxOf value), ?_, hindex⟩
  apply (h.texts.find?_pool .gameVariables).2
  change p₀.pools.gameVariables.keys[_]? = _
  rw [hindex, h.keys]
  exact List.getElem?_idxOf hvalue

end LookedAhead

/-! ## What is left to change -/

/-- No variable was added, or only the one without a name. -/
def VariablesFixed (p₀ p : Project) : Prop :=
  p₀.SameTexts .gameVariables p ∨
    p₀.pools.gameVariables.find? "" = none ∧
      (p₀.store .gameVariables "").SameTexts .gameVariables p

namespace Project.SameTexts

variable {pool : Pool} {p q r : Project}

theorem trans (hpq : p.SameTexts pool q) (hqr : q.SameTexts pool r) : p.SameTexts pool r :=
  ⟨hqr.records.trans hpq.records, hqr.numbers.trans hpq.numbers⟩

/-- The same text is stored in the same way. -/
theorem store (h : p.SameTexts pool q) (value : String) :
    (p.store pool value).SameTexts pool (q.store pool value) where
  records := by
    change (q.tables.add pool.kind _).records pool.kind = (p.tables.add pool.kind _).records _
    rw [Tables.records_add, Tables.records_add, h.records]
  numbers := by
    have hnext : q.next pool.kind = p.next pool.kind := by
      rw [Project.next, Project.next, Tables.count, Tables.count, h.records]
    change (q.pools.put pool value _).get pool = (p.pools.put pool value _).get pool
    rw [Pools.get_put, Pools.get_put, h.numbers, hnext]

end Project.SameTexts

namespace VariablesFixed

variable {p₀ p q : Project}

theorem refl (p₀ : Project) : VariablesFixed p₀ p₀ := Or.inl ⟨rfl, rfl⟩

theorem same (h : VariablesFixed p₀ p) (hsame : p.SameTexts .gameVariables q) :
    VariablesFixed p₀ q := by
  rcases h with h | ⟨hempty, h⟩
  · exact Or.inl (h.trans hsame)
  · exact Or.inr ⟨hempty, h.trans hsame⟩

/-- Variables keep their numbers. -/
theorem staysIn (h : VariablesFixed p₀ p) :
    p₀.pools.gameVariables.StaysIn p.pools.gameVariables := by
  rcases h with h | ⟨hempty, h⟩
  · have hnumbers : p.pools.gameVariables = p₀.pools.gameVariables := h.numbers
    rw [hnumbers]
    exact .refl _
  · have hnumbers : p.pools.gameVariables =
        p₀.pools.gameVariables.put "" (p₀.next .gameVariables) := h.numbers
    rw [hnumbers]
    exact .put hempty

/-- A variable that the look-ahead knows is found, on whatever map. -/
theorem known (h : VariablesFixed p₀ p) {raw value : String} {index : UInt16}
    (hraw : templatize none p₀.pools.gameVariables raw = .ok value)
    (hfind : p₀.pools.gameVariables.find? value = some index) (map : Option MapContext) :
    templatize map p.pools.gameVariables raw = .ok value ∧
      p.pools.gameVariables.find? value = some index :=
  ⟨templatize_mono h.staysIn (templatize_of_none hraw map), h.staysIn _ _ hfind⟩

/-- Storing the empty text is the only change. -/
theorem internEmpty (h : VariablesFixed p₀ p) (map : Option MapContext) :
    VariablesFixed p₀ (outcome (intern .gameVariables map "") p).2 := by
  rcases hout : outcome (intern .gameVariables map "") p with ⟨e | index, q⟩
  · rwa [atomic_intern _ _ _ p e q hout]
  · obtain ⟨value, hvalue, ⟨-, rfl⟩ | ⟨hnew, -, -, -, rfl⟩⟩ := intern_succeeds hout
    · exact h
    · rw [templatize_plain (by decide) (by decide)] at hvalue
      cases hvalue
      rcases h with h | ⟨hempty, h⟩
      · refine Or.inr ⟨?_, h.store ""⟩
        have hnumbers : p.pools.gameVariables = p₀.pools.gameVariables := h.numbers
        rw [← hnumbers]
        exact hnew
      · -- the empty text has been stored before
        have hnumbers : p.pools.gameVariables =
            p₀.pools.gameVariables.put "" (p₀.next .gameVariables) := h.numbers
        change p.pools.gameVariables.find? "" = none at hnew
        rw [hnumbers, Ordered.find?_put, if_pos rfl] at hnew
        cases hnew

/-- **Every operation that stores known variables only keeps the variables as they are.** -/
theorem operation {S : String → Prop}
    (hknown : ∀ raw, S raw → raw = "" ∨ ∃ value index,
      templatize none p₀.pools.gameVariables raw = .ok value ∧
        p₀.pools.gameVariables.find? value = some index)
    {o : Operation} (ho : OnlyVariables S p o) (h : VariablesFixed p₀ p) :
    VariablesFixed p₀ (outcome o.step p).2 := by
  by_cases hvariable : ∃ map raw, o = .text .gameVariables map raw
  · obtain ⟨map, raw, rfl⟩ := hvariable
    rcases hknown raw (ho map raw rfl) with rfl | ⟨value, index, hraw, hfind⟩
    · exact h.internEmpty map
    · obtain ⟨hvalue, hindex⟩ := h.known hraw hfind map
      have hintern : Yields (intern .gameVariables map raw) p index p := intern_known hvalue hindex
      change VariablesFixed p₀ (outcome (intern .gameVariables map raw) p).2
      rwa [show outcome (intern .gameVariables map raw) p = (.ok index, p) from hintern]
  · apply h.same
    exact o.sameTexts (fun map raw heq => hvariable ⟨map, raw, heq⟩) p

end VariablesFixed

/-! ## Names of variables -/

/-- An action of the table names the variable `raw` by one of its operands. -/
structure NamesVariable (input : Input) (a : Action) (operand : Operand) (raw : String) :
    Prop where
  table : ∃ name script, input.definitions.scripts.find? name = some script ∧ a ∈ script
  slot : ∃ number opcode, Opcode.find? a.name = some (number, opcode) ∧ operand ∈ opcode.operands
  kind : operand.kind = .text .gameVariables
  text : a.text operand.property = .ok raw
  nonEmpty : raw ≠ ""

/-- The look-ahead reads every argument that could name a variable. -/
theorem mem_namedVariables {name : String} {script : Script} {a : Action} {key text : String}
    (hscript : input.definitions.scripts.find? name = some script) (ha : a ∈ script)
    (hkey : key ∈ variableKeys) (htext : a.text key = .ok text) (hnonEmpty : text ≠ "") :
    text ∈ namedVariables input.definitions.scripts := by
  have hvalue : a.args.find? key >>= Json.asString? = some text := by
    unfold Action.text at htext
    split at htext
    · next found hfound =>
      cases htext
      exact hfound
    · cases htext
  have hvalues : script ∈ input.definitions.scripts.values :=
    List.mem_map_of_mem (Ordered.mem_entries hscript)
  refine List.mem_flatMap.2 ⟨a, List.mem_flatten.2 ⟨script, hvalues, ha⟩, ?_⟩
  refine List.mem_filterMap.2 ⟨key, hkey, ?_⟩
  rw [hvalue]
  simp [nonEmpty?, hnonEmpty]

theorem NamesVariable.mem {a : Action} {operand : Operand} {raw : String}
    (h : NamesVariable input a operand raw) :
    raw ∈ namedVariables input.definitions.scripts := by
  obtain ⟨name, script, hscript, ha⟩ := h.table
  obtain ⟨number, opcode, hopcode, hoperand⟩ := h.slot
  have hkey := Opcode.property_mem_variableKeys hopcode hoperand h.kind
  exact mem_namedVariables hscript ha hkey h.text h.nonEmpty

/-- The texts that are stored as variables when actions are encoded. -/
def EmptyOrNamed (input : Input) (raw : String) : Prop :=
  raw = "" ∨ raw ∈ namedVariables input.definitions.scripts

theorem variablesIn_emptyOrNamed (input : Input) : input.VariablesIn (EmptyOrNamed input) := by
  intro name script hscript a ha key hkey text htext
  by_cases hempty : text = ""
  · exact Or.inl hempty
  · exact Or.inr (mem_namedVariables hscript ha hkey htext hempty)

/-! ## The passes behind the look-ahead -/

/-- The passes of a build that follow the first one, as far as some of its maps. -/
def laterPasses (input : Input) (maps : List (String × MapSettings)) : Step Project Unit := do
  reserveMaps input
  buildPrototypes input
  loadDialogSkins input
  buildPortraits input
  buildEntityTypes input
  let _ ← addNullScript
  maps.forM fun (name, settings) => buildMap input name settings

theorem buildShared_bind (input : Input) (maps : List (String × MapSettings)) :
    (do
      buildShared input
      maps.forM fun (name, settings) => buildMap input name settings) =
    (do
      storeVariables input
      laterPasses input maps) := by
  unfold buildShared laterPasses
  simp only [bind_assoc, pure_bind]

theorem laterPasses_variables {S : String → Prop} (hinput : input.VariablesIn S)
    (maps : List (String × MapSettings)) : VariablesIn S id (laterPasses input maps) := by
  have hA := generous_onlyVariables S
  apply Always.bind reserveMaps_variables
  intro _
  apply Always.bind buildPrototypes_variables
  intro _
  apply Always.bind hA.loadDialogSkins
  intro _
  apply Always.bind (hA.buildPortraits (grantsLooks_onlyVariables S))
  intro _
  apply Always.bind (hA.buildEntityTypes (grantsLooks_onlyVariables S))
  intro _
  apply Always.bind hA.addNullScript
  intro _
  exact .forM fun map _ => hA.buildMap hinput map.1 map.2

section LookAhead

variable {values : List String} {p₀ : Project}
  (h : LookedAhead (namedVariables input.definitions.scripts) values p₀)
include h

/-- At every moment of the later passes the variables are fixed. -/
theorem LookedAhead.fixed (maps : List (String × MapSettings)) :
    Performs (fun p _ => VariablesFixed p₀ p) id (laterPasses input maps) p₀ ∧
      VariablesFixed p₀ (outcome (laterPasses input maps) p₀).2 := by
  have hknown : ∀ raw, EmptyOrNamed input raw → raw = "" ∨ ∃ value index,
      templatize none p₀.pools.gameVariables raw = .ok value ∧
        p₀.pools.gameVariables.find? value = some index := by
    rintro raw (hempty | hnamed)
    · exact Or.inl hempty
    · obtain ⟨value, hvalue, hraw⟩ := h.exists_value hnamed
      obtain ⟨index, hfind, -⟩ := h.find?_value hvalue
      exact Or.inr ⟨value, index, hraw, hfind⟩
  have hpasses := laterPasses_variables (variablesIn_emptyOrNamed input) maps p₀
  obtain ⟨hperforms, hend⟩ := hpasses.keeping (I := VariablesFixed p₀)
    (fun p o ho hp => hp.operation hknown ho) (.refl p₀)
  exact ⟨hperforms.mono fun p o ho => ho.2, hend⟩

/-- The project before a map is one of these moments. -/
theorem LookedAhead.fixed_before (hahead : Yields (storeVariables input) {} () p₀) (i : Nat) :
    VariablesFixed p₀ (projectBefore input i) := by
  have hend := (h.fixed (input.definitions.maps.entries.take i)).2
  rw [projectBefore, buildUpTo, buildShared_bind, outcome_bind]
  rwa [show outcome (storeVariables input) {} = (.ok (), p₀) from hahead]

end LookAhead

/-! ## Numbers of variables -/

/-- What is known about the variables of a project, if `values` are the texts that the look-ahead
    has stored. -/
structure VariablesNumbered (input : Input) (p₀ : Project) (values : List String) (p : Project) :
    Prop where
  /-- The table has every text where it came up first, and perhaps the empty one behind them. -/
  records : (p.tables.records .gameVariables).toList = values.eraseDups.map Record.ofText ∨
    "" ∉ values ∧ (p.tables.records .gameVariables).toList =
      (values.eraseDups ++ [""]).map Record.ofText
  /-- An operand has the number of its text on every map, and nothing is stored for it. -/
  operand : ∀ {a operand raw}, NamesVariable input a operand raw → ∃ value ∈ values,
    templatize none p₀.pools.gameVariables raw = .ok value ∧ ∀ compile map,
      Yields (resolve input compile a operand) ⟨map, p⟩ (values.eraseDups.idxOf value) ⟨map, p⟩
  /-- So does a token in a text. -/
  token : ∀ {a operand} {raw : String}, NamesVariable input a operand raw →
    '%' ∉ raw.toList → '$' ∉ raw.toList → '\n' ∉ raw.toList →
    raw ∈ values ∧ ∃ number : UInt16, number.toNat = values.eraseDups.idxOf raw ∧
      (∀ text, variableToken p.pools.gameVariables text raw = .ok number) ∧
      ∀ map (front back : String), '%' ∉ front.toList ∧ '$' ∉ front.toList →
        '%' ∉ back.toList ∧ '$' ∉ back.toList →
        templatize map p.pools.gameVariables s!"{front}${raw}${back}" =
          .ok s!"{front}$${number}$${back}"

/-- In the scripts of the tables the slots of variables hold the numbers by first occurrence. -/
def VariableSlots (input : Input) (p₀ : Project) (values : List String) (tables : Tables) : Prop :=
  ∀ (k : Nat) (name : String) (bytes : Bytes) (actions : Script),
    (tables.records .scripts)[k]? = some ⟨name, some bytes⟩ → HasActions input name actions →
      ∀ (j : Nat) (a : Action) (number : UInt8) (opcode : Opcode) (m : Nat) (operand : Operand)
        (raw : String), actions[j]? = some a → Opcode.find? a.name = some (number, opcode) →
        opcode.operands[m]? = some operand → NamesVariable input a operand raw →
          ∃ value ∈ values, templatize none p₀.pools.gameVariables raw = .ok value ∧
            bytes.slot? (36 + 8 * j + opcode.slotOffset m) operand.width =
              some (values.eraseDups.idxOf value)

section Numbers

variable {values : List String} {p₀ p : Project}
  (h : LookedAhead (namedVariables input.definitions.scripts) values p₀)
include h

theorem LookedAhead.number {a : Action} {operand : Operand} {raw : String}
    (hnames : NamesVariable input a operand raw) :
    ∃ value ∈ values, templatize none p₀.pools.gameVariables raw = .ok value ∧
      ∃ index, p₀.pools.gameVariables.find? value = some index ∧
        index.toNat = values.eraseDups.idxOf value := by
  obtain ⟨value, hvalue, hraw⟩ := h.exists_value hnames.mem
  exact ⟨value, hvalue, hraw, h.find?_value hvalue⟩

theorem LookedAhead.numbered (hfixed : VariablesFixed p₀ p) :
    VariablesNumbered input p₀ values p where
  records := by
    have hrecords := h.texts.records_pool .gameVariables
    change (p₀.tables.records .gameVariables).toList =
      p₀.pools.gameVariables.keys.map Record.ofText at hrecords
    rw [h.keys] at hrecords
    rcases hfixed with hsame | ⟨hempty, hsame⟩
    · have htable : p.tables.records .gameVariables = p₀.tables.records .gameVariables :=
        hsame.records
      rw [htable]
      exact Or.inl hrecords
    · have htable : p.tables.records .gameVariables =
          (p₀.tables.add .gameVariables (.ofText "")).records .gameVariables := hsame.records
      refine Or.inr ⟨fun hmem => ?_, ?_⟩
      · obtain ⟨index, hfind, -⟩ := h.find?_value hmem
        rw [hempty] at hfind
        cases hfind
      · rw [htable, Tables.toList_records_add, hrecords, List.map_append]
        rfl
  operand {a operand raw} hnames := by
    obtain ⟨value, hvalue, hraw, index, hfind, hindex⟩ := h.number hnames
    refine ⟨value, hvalue, hraw, fun compile map => ?_⟩
    obtain ⟨hreplaced, hfound⟩ := hfixed.known hraw hfind (some map)
    have hintern : Yields (internOnMap .gameVariables raw) ⟨map, p⟩ index ⟨map, p⟩ :=
      TextNumber.yields ⟨value, hreplaced, hfound⟩
    rw [resolve, hnames.kind]
    simp only [yields_bind, yields_except, yields_pure]
    exact ⟨raw, _, ⟨liftM_eq_ok.2 hnames.text, rfl⟩, index, _, hintern, hindex, rfl⟩
  token {a operand raw} hnames hobject hvariable hline := by
    obtain ⟨value, hvalue, hraw, index, hfind, hindex⟩ := h.number hnames
    rw [templatize_plain hobject hvariable] at hraw
    cases hraw
    have hfound := hfixed.staysIn _ _ hfind
    refine ⟨hvalue, index, hindex, fun text => ?_, fun map front back hfront hback => ?_⟩
    · rw [variableToken, hfound]
    · exact templatize_variable hfront ⟨hobject, hvariable, hline⟩ hback hfound map

/-- In a finished script the slot of the operand holds this number. -/
theorem LookedAhead.slots (hahead : Yields (storeVariables input) {} () p₀) {tables : Tables}
    (hbuild : build input = .ok tables) : VariableSlots input p₀ values tables := by
  intro k name bytes actions hrecord hactions j a number opcode m operand raw hj hopcode hm hnames
  obtain ⟨value, hvalue, hraw, index, hfind, hindex⟩ := h.number hnames
  refine ⟨value, hvalue, hraw, ?_⟩
  obtain rfl | hpos := Nat.eq_zero_or_pos k
  · -- the first script is the one that does nothing
    have hnull := (ready_of_build hbuild (Nat.le_refl _)).1.null
    rw [(yields_of_build hbuild).2, hrecord] at hnull
    obtain ⟨rfl, -⟩ := Record.mk.inj (Option.some.inj hnull)
    exact absurd rfl hactions.1
  obtain ⟨i, hi, hfirst, hlast⟩ :=
    map_of_script hbuild hpos (Array.getElem?_eq_some_iff.1 hrecord).1
  have hmap := List.getElem?_eq_getElem hi
  obtain ⟨mapBytes, s, -, hbuilt, -, hafter⟩ := compiled_of_build hbuild hmap
  obtain ⟨actions', hactions', hsettled⟩ :=
    scriptOf_of_build hbuild hmap hbuilt hafter hfirst hlast hrecord
  obtain rfl : actions' = actions := by
    obtain ⟨-, script, hscript, hexpand⟩ := hactions
    obtain ⟨-, script', hscript', hexpand'⟩ := hactions'
    rw [hscript] at hscript'
    cases hscript'
    rw [hexpand] at hexpand'
    cases hexpand'
    rfl
  -- the text is found on the map as the look-ahead has stored it
  have hfixed : VariablesFixed p₀ s.project := by
    have hnext := h.fixed_before hahead (i + 1)
    rw [hafter] at hnext
    apply hnext.same
    exact ⟨(Tables.records_set_of_ne (by decide)).symm, rfl⟩
  obtain ⟨hreplaced, hfound⟩ := hfixed.known hraw hfind (some s.map)
  obtain ⟨number', opcode', hopcode', -, hslots⟩ := (composeScript_holds hsettled.now).2.2 j a hj
  rw [hopcode] at hopcode'
  cases hopcode'
  obtain ⟨stored, hstored, hslot⟩ := hslots m operand hm
  have horder : operand.order = .data := by
    apply (Opcode.plain hopcode operand (List.mem_of_getElem? hm)).2
    rw [hnames.kind]
    nofun
  rw [Found, hnames.kind] at hstored
  obtain ⟨text, index', htext, ⟨value', hreplaced', hfound'⟩, rfl⟩ := hstored
  rw [hnames.text] at htext
  cases htext
  rw [hreplaced] at hreplaced'
  cases hreplaced'
  rw [show Pools.get _ .gameVariables = s.project.pools.gameVariables from rfl, hfound] at hfound'
  cases hfound'
  rw [hslot horder, hindex]

end Numbers

/-! ## The main result -/

/-- **The look-ahead fixes the variables.** If it succeeds, its texts are the named variables with
    their tokens replaced, and variables are numbered by first occurrence among them. So it is at
    every moment of the passes that follow, whether they succeed or not: a text without a name may
    be added, and nothing else. In particular the operands of actions have these numbers in the
    finished scripts. -/
theorem lookahead_fixes_variables {p₀ : Project}
    (h : Yields (storeVariables input) {} () p₀) :
    ∃ values, (namedVariables input.definitions.scripts).mapM
        (templatize none p₀.pools.gameVariables) = .ok values ∧
      outcome (buildAll input) {} =
        outcome (laterPasses input input.definitions.maps.entries) p₀ ∧
      Performs (fun p _ => VariablesNumbered input p₀ values p) id
        (laterPasses input input.definitions.maps.entries) p₀ ∧
      VariablesNumbered input p₀ values (outcome (buildAll input) {}).2 ∧
      ∀ tables, build input = .ok tables → VariableSlots input p₀ values tables := by
  obtain ⟨values, hvalues⟩ := lookedAhead_of_yields h
  obtain ⟨hperforms, hend⟩ := hvalues.fixed input.definitions.maps.entries
  have hall : outcome (buildAll input) {} =
      outcome (laterPasses input input.definitions.maps.entries) p₀ := by
    rw [buildAll, buildShared_bind, outcome_bind]
    rw [show outcome (storeVariables input) {} = (.ok (), p₀) from h]
  refine ⟨values, mapM_eq_ok.2 hvalues.replaced, hall, ?_, ?_, ?_⟩
  · exact hperforms.mono fun p _ hp => hvalues.numbered hp
  · rw [hall]
    exact hvalues.numbered hend
  · intro tables hbuild
    exact hvalues.slots h hbuild

/-- A map that keeps accounts when it is loaded. Two variables have tokens in their names, and one
    is named twice. -/
def ledger : Input where
  source := twoMaps.source
  definitions := {
    maps := .ofList [("town", { path := some "town.json" })]
    scripts := .ofList [("greet",
      [⟨"MUTATE_VARIABLES", .ofList [("variable", .string "purse of %PLAYER%"),
          ("source", .string "gold"), ("operation", .string "SET")]⟩,
        ⟨"MUTATE_VARIABLES", .ofList [("variable", .string "$gold$ coins"),
          ("source", .string "gold"), ("operation", .string "SET")]⟩])] }

theorem ledger_variables : ∃ p₀ values tables,
    Yields (storeVariables ledger) {} () p₀ ∧ build ledger = .ok tables ∧
      (namedVariables ledger.definitions.scripts).mapM
        (templatize none p₀.pools.gameVariables) = .ok values ∧
      VariablesNumbered ledger p₀ values (outcome (buildAll ledger) {}).2 ∧
      VariableSlots ledger p₀ values tables := by
  obtain ⟨tables, htables⟩ := exists_of_isOk (x := build ledger) (by decide +kernel)
  obtain ⟨⟨⟩, hahead⟩ := exists_of_isOk (x := (outcome (storeVariables ledger) {}).1)
    (by decide +kernel)
  have h := yields_outcome hahead
  obtain ⟨values, hvalues, -, -, hend, hslots⟩ := lookahead_fixes_variables h
  exact ⟨_, values, tables, h, htables, hvalues, hend, hslots tables htables⟩

end GameBundle
