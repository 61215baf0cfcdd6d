import GameBundle.Project.Load
import GameBundle.Proofs.Steps
import Mathlib.Data.List.Nodup

set_option autoImplicit false

/-! # Merged definitions

The definitions of a project are spread over files, and their order is that in which the files are
listed. Whether they are merged depends on their names alone: in the order in which the names are
read, the first one that was read before is refused, with the file that repeats it. So it does not
matter where one file ends and the next one begins, and `mergeRead` is one loop over all items, each
with its file. If no name is repeated then nothing is lost: the merged definitions are those of the
files, one behind the other. -/

namespace GameBundle

open Json (Decoder)
open Json.Decode

variable {α : Type}

/-! ## Names that are read one after the other -/

/-- `name` in `file` is the first of the names that was read before, or was known from the start.
    Each name is listed with its file. -/
def FirstRepeated (known : List String) (names : List (String × String)) (file name : String) :
    Prop :=
  ∃ earlier later, names = earlier ++ (file, name) :: later ∧
    (known ++ earlier.map Prod.snd).Nodup ∧ name ∈ known ++ earlier.map Prod.snd

/-- If a name is repeated then one of them is the first. The induction is on the names that are
    still to be read. -/
theorem exists_firstRepeated {known : List String} {names : List (String × String)}
    (hknown : known.Nodup) (h : ¬(known ++ names.map Prod.snd).Nodup) :
    ∃ file name, FirstRepeated known names file name := by
  induction names generalizing known with
  | nil =>
    rw [List.map_nil, List.append_nil] at h
    exact absurd hknown h
  | cons first rest ih =>
    obtain ⟨file, name⟩ := first
    by_cases hname : name ∈ known
    · exact ⟨file, name, [], rest, rfl, by simpa using hknown, by simpa using hname⟩
    · have hmoved : known ++ ((file, name) :: rest).map Prod.snd =
          (known ++ [name]) ++ rest.map Prod.snd := by simp
      rw [hmoved] at h
      have hnext : (known ++ [name]).Nodup := by
        rw [List.nodup_append_comm]
        exact List.nodup_cons.2 ⟨hname, hknown⟩
      obtain ⟨file', name', earlier, later, rfl, hnodup, hmem⟩ := ih hnext h
      refine ⟨file', name', (file, name) :: earlier, later, rfl, ?_, ?_⟩
      · simpa using hnodup
      · simpa using hmem

/-! ## One loop over all items -/

/-- Add items one after the other, each of them read from a file. -/
def mergeRead (kind : String) (merged : Ordered α) (items : List (String × String × α)) :
    Except BuildError (Ordered α) :=
  items.foldlM (fun merged item =>
    if merged.contains item.2.1 then .error (.duplicateName kind item.2.1 item.1)
    else .ok (merged.put item.2.1 item.2.2)) merged

/-- The names of some items, each with its file. -/
def namesOf (items : List (String × String × α)) : List (String × String) :=
  items.map fun item => (item.1, item.2.1)

section Items

variable {kind : String} {merged m : Ordered α} {items : List (String × String × α)}

/-- Items with different names are all added. The induction is on the items. -/
theorem mergeRead_of_nodup (kind : String)
    (h : (merged.keys ++ (namesOf items).map Prod.snd).Nodup) :
    ∃ m, mergeRead kind merged items = .ok m ∧
      m.entries = merged.entries ++ items.map Prod.snd := by
  induction items generalizing merged with
  | nil => exact ⟨merged, rfl, (List.append_nil _).symm⟩
  | cons item rest ih =>
    obtain ⟨file, name, value⟩ := item
    have hnew : name ∉ merged.keys := fun hmem =>
      (List.nodup_append.1 h).2.2 name hmem name List.mem_cons_self rfl
    have hnone : merged.find? name = none :=
      Option.eq_none_iff_forall_ne_some.2 fun _ hfind => hnew (Ordered.mem_keys hfind)
    have hrest : ((merged.put name value).keys ++ (namesOf rest).map Prod.snd).Nodup := by
      rw [Ordered.keys_put_new hnew, List.append_assoc]
      exact h
    obtain ⟨m, hm, hentries⟩ := ih hrest
    refine ⟨m, ?_, ?_⟩
    · rw [mergeRead, List.foldlM_cons, if_neg fun hmem => hnew (Ordered.contains_iff.1 hmem)]
      exact hm
    · rw [hentries, Ordered.entries_put value hnone, List.append_assoc]
      rfl

/-- The first name that is repeated is refused. -/
theorem mergeRead_of_firstRepeated {file name : String}
    (h : FirstRepeated merged.keys (namesOf items) file name) :
    mergeRead kind merged items = .error (.duplicateName kind name file) := by
  obtain ⟨earlier, later, hnames, hnodup, hmem⟩ := h
  obtain ⟨before, after, rfl, rfl, hafter⟩ := List.map_eq_append_iff.1 hnames
  obtain ⟨item, rest, rfl, hitem, rfl⟩ := List.map_eq_cons_iff.1 hafter
  obtain ⟨rfl, rfl⟩ := Prod.mk.inj hitem
  obtain ⟨m, hm, hentries⟩ := mergeRead_of_nodup kind hnodup
  have hkeys : m.keys = merged.keys ++ (namesOf before).map Prod.snd := by
    rw [Ordered.keys, hentries, List.map_append, namesOf, List.map_map, List.map_map]
    rfl
  rw [mergeRead] at hm ⊢
  rw [List.foldlM_append, hm]
  have htaken : m.contains item.2.1 = true := Ordered.contains_iff.2 (hkeys ▸ hmem)
  change (List.foldlM _ m _ : Except BuildError (Ordered α)) = _
  rw [List.foldlM_cons, if_pos htaken]
  rfl

/-- **Items are merged exactly if no name is repeated**, and then none is lost. -/
theorem mergeRead_eq_ok : mergeRead kind merged items = .ok m ↔
    (merged.keys ++ (namesOf items).map Prod.snd).Nodup ∧
      m.entries = merged.entries ++ items.map Prod.snd := by
  by_cases h : (merged.keys ++ (namesOf items).map Prod.snd).Nodup
  · obtain ⟨m', hm', hentries⟩ := mergeRead_of_nodup kind h
    rw [hm', Except.ok.injEq]
    constructor
    · rintro rfl
      exact ⟨h, hentries⟩
    · exact fun heq => Ordered.ext_entries (hentries.trans heq.2.symm)
  · obtain ⟨file, name, hfirst⟩ := exists_firstRepeated merged.nodup_keys h
    rw [mergeRead_of_firstRepeated hfirst]
    exact iff_of_false (by simp) fun heq => h heq.1

theorem mergeRead_eq_error {e : BuildError} : mergeRead kind merged items = .error e ↔
    ∃ file name, FirstRepeated merged.keys (namesOf items) file name ∧
      e = .duplicateName kind name file := by
  constructor
  · intro herror
    have h : ¬(merged.keys ++ (namesOf items).map Prod.snd).Nodup := fun hnodup => by
      obtain ⟨m, hm, -⟩ := mergeRead_of_nodup kind hnodup
      cases hm.symm.trans herror
    obtain ⟨file, name, hfirst⟩ := exists_firstRepeated merged.nodup_keys h
    rw [mergeRead_of_firstRepeated hfirst] at herror
    exact ⟨file, name, hfirst, (Except.error.inj herror).symm⟩
  · rintro ⟨file, name, hfirst, rfl⟩
    exact mergeRead_of_firstRepeated hfirst

end Items

/-! ## Files -/

/-- The items of some files in the order in which they are read. -/
def itemsRead (paths : List String) (files : List (Ordered α)) : List (String × String × α) :=
  (paths.zip files).flatMap fun read =>
    read.2.entries.map fun entry => (Text.baseName read.1, entry)

/-- The names of these items, each with its file. -/
def namesRead (paths : List String) (files : List (Ordered α)) : List (String × String) :=
  (paths.zip (files.map Ordered.keys)).flatMap fun read =>
    read.2.map fun name => (Text.baseName read.1, name)

/-- `files` are the definitions that are read from the paths. -/
def ReadFrom (source : Source) (d : Decoder α) (paths : List String) (files : List (Ordered α)) :
    Prop :=
  List.Forall₂ (fun path items => readJson source (dictionary d) (Text.baseName path) = .ok items)
    paths files

section Files

variable {source : Source} {d : Decoder α} {kind : String} {paths : List String}
  {files : List (Ordered α)} {merged m : Ordered α}

theorem mergeInto_eq {file : String} {items : List (String × α)} :
    mergeInto (.duplicateName kind · file) merged items =
      mergeRead kind merged (items.map fun entry => (file, entry)) := by
  rw [mergeRead, List.foldlM_map]
  rfl

theorem mergeRead_append {items more : List (String × String × α)} :
    mergeRead kind merged (items ++ more) =
      mergeRead kind merged items >>= fun m => mergeRead kind m more := List.foldlM_append

/-- **Files are merged as if all of it stood in one.** The induction is on the files. -/
theorem mergeNamed_eq (h : ReadFrom source d paths files) :
    mergeNamed source d kind paths = mergeRead kind ∅ (itemsRead paths files) := by
  unfold mergeNamed
  generalize (∅ : Ordered α) = merged
  induction h generalizing merged with
  | nil => rfl
  | @cons path items paths files hread _ ih =>
    have hitems : itemsRead (path :: paths) (items :: files) =
        (items.entries.map fun entry => (Text.baseName path, entry)) ++ itemsRead paths files := by
      rw [itemsRead, List.zip_cons_cons, List.flatMap_cons]
      rfl
    rw [List.foldlM_cons, hitems, mergeRead_append, ← mergeInto_eq]
    simp only [hread, ih]
    rfl

/-- All files are read for that. -/
theorem exists_readFrom (h : mergeNamed source d kind paths = .ok m) :
    ∃ files, ReadFrom source d paths files := by
  unfold mergeNamed at h
  generalize (∅ : Ordered α) = merged at h
  induction paths generalizing merged with
  | nil => exact ⟨[], .nil⟩
  | cons path paths ih =>
    simp only [List.foldlM_cons, bind_eq_ok] at h
    obtain ⟨next, ⟨items, hread, -⟩, hrest⟩ := h
    obtain ⟨files, hfiles⟩ := ih next hrest
    exact ⟨items :: files, .cons hread hfiles⟩

theorem map_snd_itemsRead (h : paths.length = files.length) :
    (itemsRead paths files).map Prod.snd = files.flatMap Ordered.entries := by
  have hentries : ∀ read : String × Ordered α,
      (read.2.entries.map fun entry => (Text.baseName read.1, entry)).map Prod.snd =
        read.2.entries := fun read => by
    rw [List.map_map]
    exact List.map_id _
  rw [itemsRead, List.map_flatMap]
  simp only [hentries]
  rw [← List.flatMap_map Prod.snd Ordered.entries, List.map_snd_zip (Nat.le_of_eq h.symm)]

theorem namesOf_itemsRead : namesOf (itemsRead paths files) = namesRead paths files := by
  rw [namesOf, itemsRead, namesRead, List.map_flatMap, List.zip_map_right, List.flatMap_map]
  refine congrArg (List.flatMap · _) (funext fun read => ?_)
  rw [Prod.map_snd, Prod.map_fst, Ordered.keys, List.map_map, List.map_map]
  rfl

theorem map_snd_namesOf (h : paths.length = files.length) :
    (namesOf (itemsRead paths files)).map Prod.snd = files.flatMap Ordered.keys := by
  have hnames : (namesOf (itemsRead paths files)).map Prod.snd =
      ((itemsRead paths files).map Prod.snd).map Prod.fst := by
    rw [namesOf, List.map_map, List.map_map]
    rfl
  rw [hnames, map_snd_itemsRead h, List.map_flatMap]
  rfl

/-- No name is defined in two of the files. -/
def DefinedOnce (files : List (Ordered α)) : Prop :=
  files.Pairwise fun a b => ∀ name ∈ a.keys, name ∉ b.keys

theorem nodup_iff_definedOnce : (files.flatMap Ordered.keys).Nodup ↔ DefinedOnce files := by
  rw [List.nodup_flatMap]
  exact ⟨fun h => h.2.imp fun hab name ha hb => hab ha hb,
    fun h => ⟨fun items _ => items.nodup_keys, h.imp fun hab name ha hb => hab name ha hb⟩⟩

theorem mergeNamed_eq_ok (h : ReadFrom source d paths files) :
    mergeNamed source d kind paths = .ok m ↔
      DefinedOnce files ∧ m.entries = files.flatMap Ordered.entries := by
  rw [mergeNamed_eq h, mergeRead_eq_ok, map_snd_itemsRead h.length_eq, ← nodup_iff_definedOnce,
    ← map_snd_namesOf h.length_eq]
  rfl

end Files

/-! ## Maps -/

/-- The map says where its file is. -/
def MapSettings.HasPath (settings : MapSettings) : Prop :=
  ∃ path, settings.path = some path ∧ path ≠ ""

/-- `name` is the first of the maps that does not say where its file is. -/
def FirstPathless (maps : List (String × MapSettings)) (name : String) : Prop :=
  ∃ before settings after, maps = before ++ (name, settings) :: after ∧
    (∀ map ∈ before, map.2.HasPath) ∧ ¬settings.HasPath

/-- What is said of the file when a map is defined both in the manifest and apart from it. -/
def bothFiles : String := s!"both {scenarioFile} and {mapsFile}"

section Maps

variable {source : Source} {manifest extra m : Ordered MapSettings} {e : BuildError}

theorem isEmpty_path_iff {settings : MapSettings} :
    (settings.path.getD "").isEmpty = true ↔ ¬settings.HasPath := by
  unfold MapSettings.HasPath
  cases settings.path with
  | none => simp
  | some path => simp

/-- The first map without a path is refused. -/
theorem forIn_paths (maps : List (String × MapSettings)) :
    (forIn maps () fun (map : String × MapSettings) _ =>
      if (map.2.path.getD "").isEmpty then do
        Except.error (BuildError.missingField s!"map \"{map.1}\"" "path")
        pure (ForInStep.yield ())
      else pure (ForInStep.yield ())) =
      match maps.find? fun map => (map.2.path.getD "").isEmpty with
      | none => .ok ()
      | some map => .error (.missingField s!"map \"{map.1}\"" "path") := by
  induction maps with
  | nil => rfl
  | cons map rest ih =>
    rw [List.forIn_cons, List.find?_cons]
    cases hempty : (map.2.path.getD "").isEmpty with
    | true => rfl
    | false => exact ih

/-- Further maps are merged like one more file, and then all of them are checked. -/
theorem mergeMaps_eq
    (h : readOptionalJson source (dictionary MapSettings.decode) mapsFile ∅ = .ok extra) :
    mergeMaps source manifest =
      mergeRead "map" manifest (extra.entries.map fun entry => (bothFiles, entry)) >>= fun m =>
        match m.entries.find? fun map => (map.2.path.getD "").isEmpty with
        | none => .ok m
        | some map => .error (.missingField s!"map \"{map.1}\"" "path") := by
  unfold mergeMaps
  rw [h, ← mergeInto_eq]
  refine congrArg (mergeInto _ manifest extra.entries >>= ·) (funext fun m => ?_)
  refine (congrArg (· >>= fun _ => pure m) (forIn_paths m.entries)).trans ?_
  cases m.entries.find? fun map => (map.2.path.getD "").isEmpty <;> rfl

theorem find?_paths_eq_none {maps : List (String × MapSettings)} :
    maps.find? (fun map => (map.2.path.getD "").isEmpty) = none ↔ ∀ map ∈ maps, map.2.HasPath := by
  simp only [List.find?_eq_none, isEmpty_path_iff, not_not]

theorem firstPathless_of_find? {maps : List (String × MapSettings)} {map : String × MapSettings}
    (h : maps.find? (fun map => (map.2.path.getD "").isEmpty) = some map) :
    FirstPathless maps map.1 := by
  obtain ⟨hpath, before, after, rfl, hbefore⟩ := List.find?_eq_some_iff_append.1 h
  refine ⟨before, map.2, after, rfl, fun other hother => ?_, isEmpty_path_iff.1 hpath⟩
  have hfull := hbefore other hother
  rw [Bool.not_eq_true', ← Bool.not_eq_true, isEmpty_path_iff, not_not] at hfull
  exact hfull

/-- The names of further maps, as they are read. -/
def namesOfMaps (extra : Ordered MapSettings) : List (String × String) :=
  extra.keys.map fun name => (bothFiles, name)

theorem namesOf_maps :
    namesOf (extra.entries.map fun entry => (bothFiles, entry)) = namesOfMaps extra := by
  rw [namesOf, namesOfMaps, Ordered.keys, List.map_map, List.map_map]
  rfl

theorem map_snd_namesOfMaps : (namesOfMaps extra).map Prod.snd = extra.keys := by
  rw [namesOfMaps, List.map_map]
  exact List.map_id _

theorem nodup_keys_append : (manifest.keys ++ extra.keys).Nodup ↔
    ∀ name ∈ manifest.keys, name ∉ extra.keys := by
  rw [List.nodup_append]
  constructor
  · exact fun h name hname hextra => h.2.2 name hname name hextra rfl
  · refine fun h => ⟨manifest.nodup_keys, extra.nodup_keys, fun name hname other hother heq => ?_⟩
    exact h name hname (heq ▸ hother)

/-- No map is defined twice, so all of them are merged and it remains to look for their files. -/
theorem mergeMaps_of_apart
    (h : readOptionalJson source (dictionary MapSettings.decode) mapsFile ∅ = .ok extra)
    (hapart : ∀ name ∈ manifest.keys, name ∉ extra.keys) :
    ∃ m : Ordered MapSettings, m.entries = manifest.entries ++ extra.entries ∧
      mergeMaps source manifest =
        match m.entries.find? fun map => (map.2.path.getD "").isEmpty with
        | none => .ok m
        | some map => .error (.missingField s!"map \"{map.1}\"" "path") := by
  have hnodup : (manifest.keys ++ (namesOf (extra.entries.map fun entry =>
      (bothFiles, entry))).map Prod.snd).Nodup := by
    rwa [namesOf_maps, map_snd_namesOfMaps, nodup_keys_append]
  obtain ⟨m, hm, hentries⟩ := mergeRead_of_nodup "map" hnodup
  have hitems : (extra.entries.map fun entry => (bothFiles, entry)).map Prod.snd =
      extra.entries := by
    rw [List.map_map]
    exact List.map_id _
  rw [hitems] at hentries
  refine ⟨m, hentries, ?_⟩
  rw [mergeMaps_eq h, hm]
  rfl

theorem mergeMaps_ok
    (h : readOptionalJson source (dictionary MapSettings.decode) mapsFile ∅ = .ok extra)
    (hapart : ∀ name ∈ manifest.keys, name ∉ extra.keys)
    (hpaths : ∀ map ∈ manifest.entries ++ extra.entries, map.2.HasPath) :
    ∃ m, mergeMaps source manifest = .ok m ∧ m.entries = manifest.entries ++ extra.entries := by
  obtain ⟨m, hentries, heq⟩ := mergeMaps_of_apart h hapart
  rw [← hentries, ← find?_paths_eq_none] at hpaths
  exact ⟨m, by rw [heq, hpaths], hentries⟩

theorem mergeMaps_pathless
    (h : readOptionalJson source (dictionary MapSettings.decode) mapsFile ∅ = .ok extra)
    (hapart : ∀ name ∈ manifest.keys, name ∉ extra.keys)
    (hpaths : ¬∀ map ∈ manifest.entries ++ extra.entries, map.2.HasPath) :
    ∃ name, FirstPathless (manifest.entries ++ extra.entries) name ∧
      mergeMaps source manifest = .error (.missingField s!"map \"{name}\"" "path") := by
  obtain ⟨m, hentries, heq⟩ := mergeMaps_of_apart h hapart
  rw [← hentries, ← find?_paths_eq_none] at hpaths
  obtain ⟨map, hmap⟩ := Option.ne_none_iff_exists'.1 hpaths
  refine ⟨map.1, hentries ▸ firstPathless_of_find? hmap, ?_⟩
  rw [heq, hmap]

theorem mergeMaps_repeated
    (h : readOptionalJson source (dictionary MapSettings.decode) mapsFile ∅ = .ok extra)
    (hclash : ¬∀ name ∈ manifest.keys, name ∉ extra.keys) :
    ∃ name, FirstRepeated manifest.keys (namesOfMaps extra) bothFiles name ∧
      mergeMaps source manifest = .error (.duplicateName "map" name bothFiles) := by
  have hrepeated : ¬(manifest.keys ++ (namesOfMaps extra).map Prod.snd).Nodup := by
    rwa [map_snd_namesOfMaps, nodup_keys_append]
  obtain ⟨file, name, hfirst⟩ := exists_firstRepeated manifest.nodup_keys hrepeated
  obtain rfl : bothFiles = file := by
    obtain ⟨earlier, later, hnames, -⟩ := hfirst
    have hmem : (file, name) ∈ namesOfMaps extra := by
      rw [hnames]
      exact List.mem_append_right _ List.mem_cons_self
    obtain ⟨_, -, heq⟩ := List.mem_map.1 hmem
    exact congrArg Prod.fst heq
  refine ⟨name, hfirst, ?_⟩
  rw [← namesOf_maps] at hfirst
  rw [mergeMaps_eq h, mergeRead_of_firstRepeated hfirst]
  rfl

end Maps

/-! ## The main result -/

/-- How the files at some paths are merged. -/
structure FilesMerge (source : Source) (d : Decoder α) (kind : String) (paths : List String)
    (files : List (Ordered α)) : Prop where
  accepted : (∃ m, mergeNamed source d kind paths = .ok m) ↔ DefinedOnce files
  /-- Nothing is lost, and everything has its own name. -/
  merged : ∀ m, mergeNamed source d kind paths = .ok m →
    m.entries = files.flatMap Ordered.entries ∧
      ∀ items ∈ files, ∀ name item, items.find? name = some item → m.find? name = some item
  refused : ∀ e, mergeNamed source d kind paths = .error e ↔
    ∃ file name, FirstRepeated [] (namesRead paths files) file name ∧
      e = .duplicateName kind name file

theorem filesMerge {source : Source} {d : Decoder α} {kind : String} {paths : List String}
    {files : List (Ordered α)} (h : ReadFrom source d paths files) :
    FilesMerge source d kind paths files where
  accepted := by
    constructor
    · rintro ⟨m, hm⟩
      exact ((mergeNamed_eq_ok h).1 hm).1
    · intro hapart
      have hnodup : ((∅ : Ordered α).keys ++
          (namesOf (itemsRead paths files)).map Prod.snd).Nodup := by
        rw [map_snd_namesOf h.length_eq]
        exact nodup_iff_definedOnce.2 hapart
      obtain ⟨m, hm, -⟩ := mergeRead_of_nodup kind hnodup
      exact ⟨m, (mergeNamed_eq h).trans hm⟩
  merged m hm := by
    obtain ⟨-, hentries⟩ := (mergeNamed_eq_ok h).1 hm
    refine ⟨hentries, fun items hitems name item hitem => Ordered.find?_of_mem ?_⟩
    rw [hentries]
    exact List.mem_flatMap.2 ⟨items, hitems, Ordered.mem_entries hitem⟩
  refused e := by
    rw [mergeNamed_eq h, mergeRead_eq_error, namesOf_itemsRead]
    rfl

/-- How the maps of the manifest and further ones are merged. -/
structure MapsMerge (source : Source) (manifest extra : Ordered MapSettings) : Prop where
  accepted : (∃ m, mergeMaps source manifest = .ok m) ↔
    (∀ name ∈ manifest.keys, name ∉ extra.keys) ∧
      ∀ map ∈ manifest.entries ++ extra.entries, map.2.HasPath
  merged : ∀ m, mergeMaps source manifest = .ok m →
    m.entries = manifest.entries ++ extra.entries
  repeated : (¬∀ name ∈ manifest.keys, name ∉ extra.keys) →
    ∃ name, FirstRepeated manifest.keys (namesOfMaps extra) bothFiles name ∧
      mergeMaps source manifest = .error (.duplicateName "map" name bothFiles)
  pathless : (∀ name ∈ manifest.keys, name ∉ extra.keys) →
    (¬∀ map ∈ manifest.entries ++ extra.entries, map.2.HasPath) →
      ∃ name, FirstPathless (manifest.entries ++ extra.entries) name ∧
        mergeMaps source manifest = .error (.missingField s!"map \"{name}\"" "path")

theorem mapsMerge {source : Source} {manifest extra : Ordered MapSettings}
    (h : readOptionalJson source (dictionary MapSettings.decode) mapsFile ∅ = .ok extra) :
    MapsMerge source manifest extra := by
  have hcases : ∀ m, mergeMaps source manifest = .ok m →
      (∀ name ∈ manifest.keys, name ∉ extra.keys) ∧
        (∀ map ∈ manifest.entries ++ extra.entries, map.2.HasPath) ∧
        m.entries = manifest.entries ++ extra.entries := by
    intro m hm
    by_cases hapart : ∀ name ∈ manifest.keys, name ∉ extra.keys
    · by_cases hpaths : ∀ map ∈ manifest.entries ++ extra.entries, map.2.HasPath
      · obtain ⟨m', hm', hentries⟩ := mergeMaps_ok h hapart hpaths
        obtain rfl := Except.ok.inj (hm'.symm.trans hm)
        exact ⟨hapart, hpaths, hentries⟩
      · obtain ⟨_, -, herror⟩ := mergeMaps_pathless h hapart hpaths
        cases herror.symm.trans hm
    · obtain ⟨_, -, herror⟩ := mergeMaps_repeated h hapart
      cases herror.symm.trans hm
  exact {
    accepted := by
      constructor
      · rintro ⟨m, hm⟩
        obtain ⟨hapart, hpaths, -⟩ := hcases m hm
        exact ⟨hapart, hpaths⟩
      · rintro ⟨hapart, hpaths⟩
        obtain ⟨m, hm, -⟩ := mergeMaps_ok h hapart hpaths
        exact ⟨m, hm⟩
    merged := fun m hm => (hcases m hm).2.2
    repeated := mergeMaps_repeated h
    pathless := mergeMaps_pathless h }

/-- What becomes of the definitions of a project. -/
structure DefinitionsTold (source : Source) (manifest : Manifest) : Prop where
  /-- Further maps that can be read are merged, or else nothing is loaded. -/
  maps : ∀ extra, readOptionalJson source (dictionary MapSettings.decode) mapsFile ∅ = .ok extra →
    MapsMerge source manifest.maps extra ∧
      ∀ e, mergeMaps source manifest.maps = .error e → Definitions.load source = .error e
  /-- All that is defined is loaded, in the order of the files. -/
  loaded : ∀ definitions, Definitions.load source = .ok definitions →
    ∃ extra scripts dialogs serialDialogs,
      readOptionalJson source (dictionary MapSettings.decode) mapsFile ∅ = .ok extra ∧
      ReadFrom source (list Action.decode) manifest.scriptPaths scripts ∧
      ReadFrom source (list Screen.decode) manifest.dialogPaths dialogs ∧
      ReadFrom source SerialDialog.decode manifest.serialDialogPaths serialDialogs ∧
      definitions.maps.entries = manifest.maps.entries ++ extra.entries ∧
      definitions.scripts.entries = scripts.flatMap Ordered.entries ∧
      definitions.dialogs.entries = dialogs.flatMap Ordered.entries ∧
      definitions.serialDialogs.entries = serialDialogs.flatMap Ordered.entries
  /-- Nothing is loaded if one of the scripts has the name of the one that does nothing. -/
  reserved : ∀ path ∈ manifest.scriptPaths, ∀ scripts,
    readJson source (dictionary (list Action.decode)) (Text.baseName path) = .ok scripts →
      nullScript ∈ scripts.keys → ∃ e, Definitions.load source = .error e
  /-- And this is what is said, if nothing was wrong before. -/
  refused : ∀ maps scripts, mergeMaps source manifest.maps = .ok maps →
    mergeNamed source (list Action.decode) "scripts" manifest.scriptPaths = .ok scripts →
      nullScript ∈ scripts.keys →
        Definitions.load source = .error (.reservedName "script" nullScript)

theorem load_eq_ok {source : Source} {definitions : Definitions} {manifest : Manifest}
    (hmanifest : readJson source Manifest.decode scenarioFile = .ok manifest)
    (h : Definitions.load source = .ok definitions) :
    mergeMaps source manifest.maps = .ok definitions.maps ∧
      mergeNamed source (list Action.decode) "scripts" manifest.scriptPaths =
        .ok definitions.scripts ∧
      nullScript ∉ definitions.scripts.keys ∧
      mergeNamed source (list Screen.decode) "dialogs" manifest.dialogPaths =
        .ok definitions.dialogs ∧
      mergeNamed source SerialDialog.decode "serialDialogs" manifest.serialDialogPaths =
        .ok definitions.serialDialogs := by
  simp only [Definitions.load, hmanifest, bind_eq_ok, Except.ok.injEq] at h
  obtain ⟨_, rfl, maps, hmaps, scripts, hscripts, h⟩ := h
  split at h
  · cases h
  · next hnull =>
    simp only [bind_eq_ok, pure_eq_ok] at h
    obtain ⟨dialogs, hdialogs, serialDialogs, hserialDialogs, _, -, _, -, _, -, rfl⟩ := h
    exact ⟨hmaps, hscripts, fun hmem => hnull (Ordered.contains_iff.2 hmem), hdialogs,
      hserialDialogs⟩

theorem definitionsTold {source : Source} {manifest : Manifest}
    (hmanifest : readJson source Manifest.decode scenarioFile = .ok manifest) :
    DefinitionsTold source manifest where
  maps extra hextra := by
    refine ⟨mapsMerge hextra, fun e he => ?_⟩
    rw [Definitions.load, hmanifest]
    change (mergeMaps source manifest.maps >>= _) = _
    rw [he]
    rfl
  loaded definitions h := by
    obtain ⟨hmaps, hscripts, -, hdialogs, hserialDialogs⟩ := load_eq_ok hmanifest h
    obtain ⟨extra, hextra⟩ : ∃ extra,
        readOptionalJson source (dictionary MapSettings.decode) mapsFile ∅ = .ok extra := by
      obtain ⟨extra, hextra, -⟩ := bind_eq_ok.1 hmaps
      exact ⟨extra, hextra⟩
    obtain ⟨scripts, hreadScripts⟩ := exists_readFrom hscripts
    obtain ⟨dialogs, hreadDialogs⟩ := exists_readFrom hdialogs
    obtain ⟨serialDialogs, hreadSerialDialogs⟩ := exists_readFrom hserialDialogs
    exact ⟨extra, scripts, dialogs, serialDialogs, hextra, hreadScripts, hreadDialogs,
      hreadSerialDialogs, (mapsMerge hextra).merged _ hmaps,
      ((mergeNamed_eq_ok hreadScripts).1 hscripts).2,
      ((mergeNamed_eq_ok hreadDialogs).1 hdialogs).2,
      ((mergeNamed_eq_ok hreadSerialDialogs).1 hserialDialogs).2⟩
  reserved path hpath items hitems hnull := by
    cases hload : Definitions.load source with
    | error e => exact ⟨e, rfl⟩
    | ok definitions =>
      obtain ⟨-, hscripts, hreserved, -⟩ := load_eq_ok hmanifest hload
      obtain ⟨files, hread⟩ := exists_readFrom hscripts
      obtain ⟨other, hother, hsame⟩ := exists_of_mem_forall₂ hread.flip hpath
      obtain rfl := Except.ok.inj (hsame.symm.trans hitems)
      obtain ⟨script, hscript⟩ := Ordered.exists_find? hnull
      have hfound := ((filesMerge hread).merged _ hscripts).2 _ hother _ _ hscript
      exact absurd (Ordered.mem_keys hfound) hreserved
  refused maps scripts hmaps hscripts hnull := by
    rw [Definitions.load, hmanifest]
    change (mergeMaps source manifest.maps >>= _) = _
    rw [hmaps]
    change (mergeNamed source (list Action.decode) "scripts" manifest.scriptPaths >>= _) = _
    rw [hscripts]
    exact if_pos (Ordered.contains_iff.2 hnull)

/-- **Definitions are merged without loss, and none is ever overridden.** -/
theorem definitions_merge (source : Source) :
    (∀ (α : Type) (d : Decoder α) kind paths files, ReadFrom source d paths files →
      FilesMerge source d kind paths files) ∧
      ∀ manifest, readJson source Manifest.decode scenarioFile = .ok manifest →
        DefinitionsTold source manifest :=
  ⟨fun _ _ _ _ _ => filesMerge, fun _ => definitionsTold⟩

/-! ## An example -/

/-- Three scripts in two files, and one map apart from the manifest. -/
def library : Source :=
  .inMemory .none (.ofList [
    ("scenario.json", ("\x7b\"maps\":\x7b\"town\":\"maps/town.json\"\x7d," ++
      "\"scriptPaths\":[\"scripts/a.json\",\"scripts/b.json\"]\x7d").toUTF8),
    ("maps.json", "\x7b\"cave\":\x7b\"path\":\"cave.json\"\x7d\x7d".toUTF8),
    ("a.json", "\x7b\"first\":[],\"second\":[]\x7d".toUTF8),
    ("b.json", "\x7b\"third\":[]\x7d".toUTF8)]) ∅

/-- The scripts of a file of the library. -/
theorem library_scripts {path : String} {keys : List String}
    (h : (readJson library (dictionary (list Action.decode)) (Text.baseName path)).toOption.map
      Ordered.keys = some keys) :
    ∃ scripts, readJson library (dictionary (list Action.decode)) (Text.baseName path) =
      .ok scripts ∧ scripts.keys = keys := by
  obtain ⟨scripts, hread, hkeys⟩ := Option.map_eq_some_iff.1 h
  exact ⟨scripts, eq_ok_of_toOption hread, hkeys⟩

/-- The library is loaded in order. If its first file was listed once more, that would be refused
    for the first script in it. -/
theorem library_merges : ∃ manifest definitions,
    DefinitionsTold library manifest ∧ Definitions.load library = .ok definitions ∧
      definitions.scripts.keys = ["first", "second", "third"] ∧
      definitions.maps.keys = ["town", "cave"] ∧
      mergeNamed library (list Action.decode) "scripts"
        ["scripts/a.json", "scripts/b.json", "more/a.json"] =
          .error (.duplicateName "scripts" "first" "a.json") := by
  have hload : (Definitions.load library).toOption.map
      (fun definitions => (definitions.scripts.keys, definitions.maps.keys)) =
        some (["first", "second", "third"], ["town", "cave"]) := by decide +kernel
  obtain ⟨definitions, hdefinitions, hkeys⟩ := Option.map_eq_some_iff.1 hload
  obtain ⟨hscripts, hmaps⟩ := Prod.mk.inj hkeys
  have hok := eq_ok_of_toOption hdefinitions
  obtain ⟨hfiles, hproject⟩ := definitions_merge library
  obtain ⟨manifest, hmanifest, -⟩ := bind_eq_ok.1 hok
  refine ⟨manifest, definitions, hproject manifest hmanifest, hok, hscripts, hmaps, ?_⟩
  obtain ⟨a, ha, haKeys⟩ : ∃ scripts, readJson library (dictionary (list Action.decode))
      (Text.baseName "scripts/a.json") = .ok scripts ∧ scripts.keys = ["first", "second"] :=
    library_scripts (by decide +kernel)
  obtain ⟨b, hb, hbKeys⟩ : ∃ scripts, readJson library (dictionary (list Action.decode))
      (Text.baseName "scripts/b.json") = .ok scripts ∧ scripts.keys = ["third"] :=
    library_scripts (by decide +kernel)
  obtain ⟨c, hc, hcKeys⟩ : ∃ scripts, readJson library (dictionary (list Action.decode))
      (Text.baseName "more/a.json") = .ok scripts ∧ scripts.keys = ["first", "second"] :=
    library_scripts (by decide +kernel)
  have hread : ReadFrom library (list Action.decode)
      ["scripts/a.json", "scripts/b.json", "more/a.json"] [a, b, c] :=
    .cons ha (.cons hb (.cons hc .nil))
  refine ((hfiles _ _ "scripts" _ _ hread).refused _).2 ⟨"a.json", "first", ?_, rfl⟩
  have hnames : namesRead ["scripts/a.json", "scripts/b.json", "more/a.json"] [a, b, c] =
      [("a.json", "first"), ("a.json", "second"), ("b.json", "third"), ("a.json", "first"),
        ("a.json", "second")] := by
    rw [namesRead, List.map_cons, List.map_cons, List.map_cons, haKeys, hbKeys, hcKeys]
    decide +kernel
  rw [hnames]
  exact ⟨[("a.json", "first"), ("a.json", "second"), ("b.json", "third")],
    [("a.json", "second")], rfl, by decide, by decide⟩

end GameBundle
