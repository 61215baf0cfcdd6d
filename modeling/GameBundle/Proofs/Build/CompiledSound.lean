import GameBundle.Proofs.Build.SharedSound
import Mathlib.Algebra.BigOperators.Ring.List

set_option autoImplicit false

/-! # What is compiled is sound

Scripts and dialogs refer to records by the numbers that names and texts have when they are
composed, and those are in range. So each step of a compilation keeps the state sound. -/

namespace GameBundle

variable {input : Input} {s t u : MapState} {count : Counts} {bytes : Bytes}

/-! ## Scripts -/

/-- The number that an argument stands for is the index of a record, if it is one at all. -/
theorem Found.lt_count {a : Action} {operand : Operand} {value : Nat} {kind : Kind}
    (h : Found a operand value s) (htarget : operand.kind.target? = some kind)
    (hmemos : s.project.Memos count) : value < count kind := by
  unfold Found at h
  unfold OperandKind.target? at htarget
  split at htarget
  · next hkind =>
    simp only [hkind] at h
    obtain ⟨name, index, -, hindex, rfl⟩ := h
    exact Option.some.inj htarget ▸ hmemos.maps _ _ hindex
  · next hkind =>
    simp only [hkind] at h
    obtain ⟨name, type, -, htype, rfl⟩ := h
    exact Option.some.inj htarget ▸ hmemos.entityTypes _ _ htype
  · next pool hkind =>
    simp only [hkind] at h
    obtain ⟨text, index, -, ⟨stored, -, hindex⟩, rfl⟩ := h
    exact Option.some.inj htarget ▸ hmemos.texts pool _ _ hindex
  · next hkind =>
    simp only [hkind] at h
    obtain ⟨name, index, -, hindex, rfl⟩ := h
    exact Option.some.inj htarget ▸ hmemos.dialogs _ _ hindex
  · next hkind =>
    simp only [hkind] at h
    obtain ⟨name, index, -, hindex, rfl⟩ := h
    exact Option.some.inj htarget ▸ hmemos.serialDialogs _ _ hindex
  · cases htarget

theorem composeScript_whole {name : String} {actions : Script}
    (h : Yields (composeScript input (compileScript input) name actions) s bytes t)
    (hmemos : t.project.Memos count) : Whole count .scripts bytes := by
  obtain ⟨hsize, -, hholds⟩ := composeScript_holds h
  refine ⟨by omega, fun j hj => ?_⟩
  have hlt : j < actions.length := by omega
  obtain ⟨number, opcode, hopcode, hnumber, hslots⟩ := hholds j _ (List.getElem?_eq_getElem hlt)
  refine ⟨number, opcode, hnumber, (Opcode.find?_eq_some.1 hopcode).1, fun k operand kind hk hkind => ?_⟩
  obtain ⟨value, hvalue, hslot⟩ := hslots k operand hk
  refine ⟨value, hslot ((Opcode.plain hopcode operand (List.mem_of_getElem? hk)).2 ?_),
    hvalue.lt_count hkind hmemos⟩
  intro hcolor
  rw [hcolor] at hkind
  cases hkind

/-! ## Dialogs -/

theorem TextNumber.lt_count {pool : Pool} {text : String} {index : UInt16}
    (h : TextNumber pool text index s) (hmemos : s.project.Memos count) :
    index.toNat < count pool.kind := by
  obtain ⟨value, -, hindex⟩ := h
  exact hmemos.texts pool _ _ hindex

/-- The fields of a response: its text has a number, and so has its script. -/
def ResponseNumbers (r : Response) (fields : List Field) (s : MapState) : Prop :=
  ∃ label script, fields = [.word label, .word script] ∧ TextNumber .strings r.label label s

/-- Going through a list, names and texts keep the numbers they get. -/
theorem later_mapM {α β : Type} {f : α → Step MapState β} (out : α → β → MapState → Prop)
    {xs : List α} {ys : List β} (hout : ∀ a b s t, Later s t → out a b s → out a b t)
    (hstep : ∀ a s b t, Yields (f a) s b t → Later s t ∧ out a b t)
    (h : Yields (xs.mapM f) s ys t) :
    Later s t ∧ List.Forall₂ (fun a b => out a b t) xs ys :=
  yields_mapM (fun _ => True) Later out (fun s _ => .refl s) (fun _ _ _ => .trans)
    (fun _ _ _ => trivial) hout (fun a _ s b t _ => hstep a s b t) trivial h

theorem texts_numbered (input : Input) {texts : List String} {numbers : List UInt16}
    (h : Yields (texts.mapM (internOnMap .strings)) s numbers t) :
    Later s t ∧ List.Forall₂ (fun text index => TextNumber .strings text index t) texts numbers :=
  later_mapM (fun text index t => TextNumber .strings text index t)
    (fun _ _ _ _ hlater hnumber => hnumber.mono hlater) (fun _ _ _ _ h => by
    obtain ⟨hnumber, hproceeds, -⟩ := internOnMap_writes input h
    exact ⟨hproceeds.follows.later, hnumber⟩) h

theorem responses_numbered {responses : List Response} {fields : List (List Field)}
    (h : Yields (responses.mapM (buildResponse (compileScript input))) s fields t) :
    Later s t ∧ List.Forall₂ (fun r part => ResponseNumbers r part t) responses fields := by
  refine later_mapM ResponseNumbers (fun _ _ _ _ hlater => ?_) (fun r s part t h => ?_) h
  · rintro ⟨label, script, rfl, hlabel⟩
    exact ⟨label, script, rfl, hlabel.mono hlater⟩
  · have hlater := ((buildResponse_replays compileScript_replays r).moves h).follows.later
    simp only [buildResponse, yields_bind, yields_pure] at h
    obtain ⟨label, u, hlabel, script, _, hscript, rfl, rfl⟩ := h
    have hmoves := ((compileScript_replays r.script).moves hscript).follows.later
    exact ⟨hlater, label, script, rfl, (internOnMap_writes input hlabel).1.mono hmoves⟩

/-- Words in a row that are numbers of texts. -/
theorem textsAt_of_fields {texts : List String} {numbers : List UInt16} {start : Nat}
    (hnumbers : List.Forall₂ (fun text index => TextNumber .strings text index t) texts numbers)
    (hmemos : t.project.Memos count)
    (h : bytes.HasFields start (numbers.map fun word => .word word)) :
    ∀ j < texts.length, bytes.RefersAt count .strings (start + 2 * j) := by
  induction hnumbers generalizing start with
  | nil => exact fun j hj => absurd hj (Nat.not_lt_zero j)
  | cons hnumber _ ih =>
    obtain ⟨hword, -, hrest⟩ := h
    intro j hj
    cases j with
    | zero => exact hword.refersAt (hnumber.lt_count hmemos)
    | succ j =>
      rw [show start + 2 * (j + 1) = start + 2 + 2 * j by omega]
      exact ih hrest j (Nat.lt_of_succ_lt_succ hj)

theorem labelsAt_of_fields {responses : List Response} {fields : List (List Field)} {start : Nat}
    (hfields : List.Forall₂ (fun r part => ResponseNumbers r part t) responses fields)
    (hmemos : t.project.Memos count) (h : bytes.HasFields start fields.flatten) :
    ∀ j < responses.length, bytes.RefersAt count .strings (start + 4 * j) := by
  induction hfields generalizing start with
  | nil => exact fun j hj => absurd hj (Nat.not_lt_zero j)
  | cons hresponse _ ih =>
    obtain ⟨label, script, rfl, hlabel⟩ := hresponse
    obtain ⟨hword, -, -, -, hrest⟩ := h
    intro j hj
    cases j with
    | zero => exact hword.refersAt (hlabel.lt_count hmemos)
    | succ j =>
      rw [show start + 4 * (j + 1) = start + 2 + 2 + 4 * j by omega]
      exact ih hrest j (Nat.lt_of_succ_lt_succ hj)

theorem Screen.portraitByte_spec {screen : Screen} {portraits : Ordered UInt16} {context : String}
    {byte : UInt8} (hportraits : portraits.All (·.toNat < count .portraits))
    (h : screen.portraitByte portraits context = .ok byte) (hne : byte ≠ noPortrait) :
    byte.toNat < count .portraits := by
  unfold Screen.portraitByte at h
  split at h
  · split at h
    · next index hindex =>
      rw [byteOf_eq_ok h]
      exact hportraits _ _ hindex
    · cases h
  · cases h
    exact absurd rfl hne

theorem Screen.border_spec {screen : Screen} {skins : Ordered UInt16} {context : String}
    {border : UInt16} (hskins : skins.All (·.toNat < count .tilesets))
    (h : screen.border skins context = .ok border) : border.toNat < count .tilesets := by
  simp only [Screen.border] at h
  split at h
  · next tileset htileset =>
    cases h
    exact hskins _ _ htileset
  · cases h

theorem buildScreen_screenAt {screen : Screen} {context : String}
    (h : Yields (buildScreen (compileScript input) screen context) s bytes t)
    (hmemos : t.project.Memos count) :
    bytes.ScreenAt count 0 screen.messages.length screen.options.length ∧
      bytes.size = Bytes.screenLength screen.messages.length screen.options.length := by
  have hlater := ((buildScreen_replays compileScript_replays screen context).moves h).follows.later
  obtain ⟨fixed, title, u, messages, v, responses, hfixed, htitle, hmessages, hresponses,
    hencode⟩ := yields_buildScreen h
  obtain ⟨huv, hmessages⟩ := texts_numbered input hmessages
  obtain ⟨hvw, hresponses⟩ := responses_numbered hresponses
  have htitle := ((internOnMap_writes input htitle).1.mono huv).mono hvw
  rw [← fixedFields_later hlater] at hfixed
  have hfields := Record.hasFields_of_encode hencode
  simp only [Bytes.hasFields_append, widthOf_append, widthOf_fixedFields hfixed, widthOf_map
    (f := fun id => Field.word id) 2 (fun _ => rfl)] at hfields
  simp only [Screen.fixedFields, bind_eq_ok, pure_eq_ok] at hfixed
  obtain ⟨entity, -, portrait, hportrait, border, hborder, alignment, -, responseType, -, messageCount,
    hmessageCount, responseCount, hresponseCount, rfl⟩ := hfixed
  obtain ⟨⟨⟨⟨htitleAt, -⟩, hfixedAt⟩, hmessagesAt⟩, hresponsesAt⟩ := hfields
  obtain ⟨hborderAt, -, -, -, -, -, hmessagesByte, -, -, -, hresponsesByte, -, -, -, hportraitAt,
    -⟩ := hfixedAt
  rw [← hmessages.length_eq] at hresponsesAt
  refine ⟨{
    title := htitleAt.refersAt (htitle.lt_count hmemos)
    border := hborderAt.refersAt (Screen.border_spec hmemos.dialogSkins hborder)
    messageCount := ⟨messageCount, hmessagesByte.byte?, byteOf_eq_ok hmessageCount⟩
    responseCount := ⟨responseCount, hresponsesByte.byte?, byteOf_eq_ok hresponseCount⟩
    portrait := ⟨portrait, hportraitAt.byte?, Screen.portraitByte_spec hmemos.portraits hportrait⟩
    texts := textsAt_of_fields (hmessages.imp fun _ _ h => h.mono hvw) hmemos hmessagesAt
    labels := ?_ }, Record.size_of_encode hencode⟩
  have hlabels := labelsAt_of_fields hresponses hmemos hresponsesAt
  rwa [widthOf_cons, widthOf_nil, Field.width, Nat.add_zero, ← Nat.add_assoc] at hlabels

/-- What was in range before is in range if everything is that is remembered later. -/
theorem Project.Memos.of_later (h : t.project.Memos count) (hst : Later s t) :
    s.project.Memos count where
  texts pool key index hfind := h.texts pool key index (hst.pools pool key index hfind)
  maps := by
    have hmaps := h.maps
    rwa [hst.project] at hmaps
  tilesets := by
    have htilesets := h.tilesets
    rwa [hst.project] at htilesets
  images := by
    have himages := h.images
    rwa [hst.project] at himages
  entityTypes := by
    have htypes := h.entityTypes
    rwa [hst.project] at htypes
  portraits := by
    have hportraits := h.portraits
    rwa [hst.project] at hportraits
  dialogSkins := by
    have hskins := h.dialogSkins
    rwa [hst.project] at hskins
  dialogs key index hfind := h.dialogs key index (hst.dialogs key index hfind)
  serialDialogs key index hfind := h.serialDialogs key index (hst.serialDialogs key index hfind)

/-- A dialog is its header and its screens, one behind the other. -/
theorem composeDialog_whole {key name : String} {screens : List Screen}
    (h : Yields (composeDialog (compileScript input) key name screens) s bytes t)
    (hmemos : t.project.Memos count) : Whole count .dialogs bytes := by
  simp only [composeDialog, yields_bind, yields_except, yields_pure] at h
  obtain ⟨header, _, ⟨hheader, rfl⟩, bodies, t, hbodies, rfl, rfl⟩ := h
  have hsize : header.size = 36 := Record.size_of_encode hheader
  -- what a screen refers to is in range if all that is remembered in the end is
  obtain ⟨-, hall⟩ := later_mapM (fun (q : Screen × Nat) (body : Bytes) u =>
      u.project.Memos count → body.ScreenAt count 0 q.1.messages.length q.1.options.length ∧
        body.size = Bytes.screenLength q.1.messages.length q.1.options.length)
    (fun _ _ _ _ hlater h hmemos => h (hmemos.of_later hlater)) (fun q s body t h =>
      ⟨((buildScreen_replays compileScript_replays q.1 _).moves h).follows.later,
        fun hmemos => buildScreen_screenAt h hmemos⟩) hbodies
  have hscreens : ∀ body ∈ bodies, ∃ messages responses,
      body.ScreenAt count 0 messages responses ∧
        body.size = Bytes.screenLength messages responses := by
    intro body hbody
    obtain ⟨q, -, hscreen⟩ := exists_of_mem_forall₂ hall hbody
    exact ⟨_, _, hscreen hmemos⟩
  have hfrom := Bytes.screensFrom_concat header hscreens
  rw [hsize] at hfrom
  refine ⟨?_, hfrom⟩
  rw [Bytes.size_concat, hsize]
  refine Nat.dvd_add (by decide) (List.dvd_sum fun size hmem => ?_)
  obtain ⟨body, hbody, rfl⟩ := List.mem_map.1 hmem
  obtain ⟨messages, responses, -, heq⟩ := hscreens body hbody
  rw [heq]
  exact four_dvd_paddedLength _

theorem composeSerialDialog_whole {name : String} {dialog : SerialDialog}
    (hcount : dialog.answers.responses.length ≤ responseLimit)
    (h : Yields (composeSerialDialog (compileScript input) name dialog) s bytes t)
    (hmemos : t.project.Memos count) : Whole count .serialDialogs bytes := by
  simp only [composeSerialDialog, yields_bind, yields_except] at h
  obtain ⟨message, u, hmessage, responses, v, hresponses, hencode, rfl⟩ := h
  obtain ⟨huv, hresponses⟩ := responses_numbered hresponses
  have hmessage := (internOnMap_writes input hmessage).1.mono huv
  have hfields := Record.hasFields_of_encode hencode
  obtain ⟨-, -, hmessageAt, -, -, -, hcountAt, -⟩ := hfields.left
  refine ⟨Record.four_dvd_of_encode hencode, hmessageAt.refersAt (hmessage.lt_count hmemos), _,
    hcountAt.byte?, fun j hj => ?_⟩
  rw [UInt8.toNat_ofNat_of_lt' (Nat.lt_succ_of_le hcount)] at hj
  exact labelsAt_of_fields hresponses hmemos hfields.right j hj

/-! ## States -/

theorem MapContext.Lists.mono {map : MapContext} {more : Counts} (h : map.Lists count)
    (hmore : ∀ kind, count kind ≤ more kind) : map.Lists more where
  entities index hindex := Nat.lt_of_lt_of_le (h.entities index hindex) (hmore _)
  geometry index hindex := Nat.lt_of_lt_of_le (h.geometry index hindex) (hmore _)
  scripts index hindex := Nat.lt_of_lt_of_le (h.scripts index hindex) (hmore _)

/-- The project is sound, and so are the lists of the map. There always is a script that does
    nothing. -/
structure MapState.Sound (s : MapState) : Prop where
  project : s.project.Sound
  null : 0 < s.project.tables.count .scripts
  lists : s.map.Lists s.project.tables.count

/-- More is built for the map without any change of its lists. -/
theorem MapState.Sound.more {p : Project} (h : s.Sound) (hp : p.Sound)
    (hmore : ∀ kind, s.project.tables.count kind ≤ p.tables.count kind) :
    MapState.Sound ⟨s.map, p⟩ :=
  ⟨hp, Nat.lt_of_lt_of_le h.null (hmore _), h.lists.mono hmore⟩

/-- **Every step of a compilation keeps the state sound.** -/
theorem Writes.sound (h : Writes input s t) (hs : s.Sound) : t.Sound := by
  have hmemos := hs.project.memos
  cases h with
  | text pool text value made new within room =>
    have henlarges := hs.project.putText value room
    exact hs.more henlarges.sound henlarges.counts
  | claim name actions source new room =>
    exact hs.more (hs.project.claim _ _) (Project.count_le_add _)
  | list name global number new next claimed =>
    refine ⟨hs.project, hs.null, { hs.lists with scripts := fun index hindex => ?_ }⟩
    rw [MapContext.listScript, Array.toList_push, List.mem_append, List.mem_singleton] at hindex
    obtain hold | rfl := hindex
    · exact hs.lists.scripts index hold
    · obtain ⟨-, rfl⟩ | hrecord := claimed
      · exact hs.null
      · exact (Array.getElem?_eq_some_iff.1 hrecord).1
  | script index name actions bytes source claimed settled =>
    refine hs.more (hs.project.fill (composeScript_whole settled.now hmemos)) fun kind => ?_
    rw [Project.fill, Tables.count_set]
  | dialog name screens bytes source new settled room =>
    have hadded := hs.project.addWhole (dialogKey s.map.name name)
      (composeDialog_whole settled.now hmemos)
    have hknown := hadded.remember (r := { s.project.add .dialogs _ with
      dialogs := s.project.dialogs.put (dialogKey s.map.name name) (s.project.next .dialogs) }) rfl {
        hadded.sound.memos with
        dialogs := hadded.sound.memos.dialogs.put (Project.next_lt_add _ room) } rfl
    exact hs.more hknown.sound hknown.counts
  | serialDialog name dialog bytes source within new settled room =>
    have hadded := hs.project.addWhole (serialDialogKey name)
      (composeSerialDialog_whole within settled.now hmemos)
    have hknown := hadded.remember (r := { s.project.add .serialDialogs _ with
      serialDialogs := s.project.serialDialogs.put name (s.project.next .serialDialogs) }) rfl {
        hadded.sound.memos with
        serialDialogs := hadded.sound.memos.serialDialogs.put (Project.next_lt_add _ room) } rfl
    exact hs.more hknown.sound hknown.counts
  | wire global number offset name script old new own slot record listed patched =>
    have hold := hs.project.records _ _ _ _ record
    refine hs.more (hs.project.fill (hold.patch_entity patched ?_)) fun kind => ?_
    · obtain rfl | rfl := slot <;> decide
    · rw [Project.fill, Tables.count_set]

theorem Follows.sound (h : Follows input s t) (hs : s.Sound) : t.Sound :=
  h.keeps (fun _ _ hwrites hs => hwrites.sound hs) hs

/-- No step removes a record. -/
theorem Writes.count_le (h : Writes input s t) (kind : Kind) :
    s.project.tables.count kind ≤ t.project.tables.count kind := by
  cases h with
  | text | claim | dialog | serialDialog => exact Project.count_le_add _ kind
  | list => exact Nat.le_refl _
  | script | wire => exact Tables.count_set.ge

theorem Follows.count_le (h : Follows input s t) (kind : Kind) :
    s.project.tables.count kind ≤ t.project.tables.count kind :=
  h.relates (R := fun s t => s.project.tables.count kind ≤ t.project.tables.count kind)
    (fun _ => Nat.le_refl _) (fun _ _ _ => Nat.le_trans) fun _ _ hwrites => hwrites.count_le kind

end GameBundle
