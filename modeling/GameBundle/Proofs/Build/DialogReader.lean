import GameBundle.Proofs.Build.MapReader
import GameBundle.Proofs.Build.StoredDialogs

set_option autoImplicit false

/-! # Dialogs from front to back

A screen does not say how long it is: the engine finds the next one only through the counts of
messages and responses, and through the padding that follows from them. `ReadDialog.reader` takes
the record of a dialog apart in this way, `ReadSerialDialog.reader` that of a serial dialog. They
find the numbers of all texts and scripts, screen by screen, and nothing is left over. -/

namespace GameBundle

/-! ## Reading -/

open Reader

/-- A response: the numbers of its text and of its script. -/
def responseReader : Reader (UInt16 × UInt16) := do
  let label ← word
  let script ← word
  return (label, script)

/-- What a screen says. The lists are as long as the counts in front of them. -/
structure ReadScreen where
  title : UInt16
  border : UInt16
  alignment : UInt8
  responseType : UInt8
  entity : UInt8
  portrait : UInt8
  emote : UInt8
  messages : List UInt16
  responses : List (UInt16 × UInt16)

namespace ReadScreen

/-- How long the parts of a screen are. -/
def partsLength (messages responses : Nat) : Nat := 12 + 2 * messages + 4 * responses

def reader : Reader ReadScreen := do
  let title ← word
  let border ← word
  let alignment ← byte
  zeros 1
  let messageCount ← byteNumber
  let responseType ← byte
  let responseCount ← byteNumber
  let entity ← byte
  let portrait ← byte
  let emote ← byte
  let messages ← many word messageCount
  let responses ← many responseReader responseCount
  let length := partsLength messageCount responseCount
  zeros (paddedLength length - length)
  return { title, border, alignment, responseType, entity, portrait, emote, messages, responses }

end ReadScreen

/-- What the record of a dialog says. -/
structure ReadDialog where
  key : List UInt8
  screens : List ReadScreen

def ReadDialog.reader : Reader ReadDialog := do
  let key ← bytes 32
  let count ← long
  let screens ← many ReadScreen.reader count.toNat
  return { key, screens }

/-- What the record of a serial dialog says. -/
structure ReadSerialDialog where
  key : List UInt8
  message : UInt16
  answers : UInt8
  responses : List (UInt16 × UInt16)

def ReadSerialDialog.reader : Reader ReadSerialDialog := do
  let key ← bytes 32
  let message ← word
  let answers ← byte
  let count ← byteNumber
  let responses ← many responseReader count
  return { key, message, answers, responses }

/-! ## What the numbers mean -/

/-- The two numbers of a response are those of its text and of its script. -/
structure ResponseSays (texts scripts : Meaning) (r : Response) (read : UInt16 × UInt16) :
    Prop where
  label : texts r.label read.1
  script : scripts r.script read.2

/-- The name over a screen: its own unless that is missing or empty, else that of the entity that
    speaks, else nothing. -/
inductive Titled (screen : Screen) : String → Prop
  | named {name : String} (own : screen.name = some name) (nonempty : name ≠ "") :
      Titled screen name
  | speaker {entity : String} (unnamed : screen.name = none ∨ screen.name = some "")
      (speaks : screen.entity = some entity) : Titled screen entity
  | nobody (unnamed : screen.name = none ∨ screen.name = some "") (alone : screen.entity = none) :
      Titled screen ""

theorem Screen.titled (screen : Screen) : Titled screen screen.title := by
  have hunnamed : screen.name = none ∨ screen.name = some "" →
      Titled screen (screen.entity.getD "") := by
    intro hunnamed
    cases hentity : screen.entity with
    | none => exact .nobody hunnamed hentity
    | some entity => exact .speaker hunnamed hentity
  unfold Screen.title
  cases hname : screen.name with
  | none => exact hunnamed (.inl hname)
  | some name =>
    by_cases hempty : name = ""
    · subst hempty
      exact hunnamed (.inr hname)
    · rw [nonEmpty?, if_neg (by rwa [String.isEmpty_iff])]
      exact .named hname hempty

/-- The numbers on a screen are those of its name, of its messages and of its responses, in
    order. -/
structure ScreenSays (texts scripts : Meaning) (screen : Screen) (read : ReadScreen) : Prop where
  title : ∃ title, Titled screen title ∧ texts title read.title
  messages : List.Forall₂ texts screen.messages read.messages
  responses : List.Forall₂ (ResponseSays texts scripts) screen.options read.responses

section Mono

variable {texts texts' scripts scripts' : Meaning} (htexts : Keeps texts texts')
  (hscripts : Keeps scripts scripts')
include htexts hscripts

theorem ResponseSays.mono {r : Response} {read : UInt16 × UInt16}
    (h : ResponseSays texts scripts r read) : ResponseSays texts' scripts' r read :=
  ⟨htexts _ _ h.label, hscripts _ _ h.script⟩

theorem ScreenSays.mono {screen : Screen} {read : ReadScreen}
    (h : ScreenSays texts scripts screen read) : ScreenSays texts' scripts' screen read where
  title := by
    obtain ⟨title, htitled, htitle⟩ := h.title
    exact ⟨title, htitled, htexts _ _ htitle⟩
  messages := h.messages.imp htexts
  responses := h.responses.imp fun _ _ hr => hr.mono htexts hscripts

end Mono

/-- The number of a text that belongs to the map. -/
def MapState.texts (s : MapState) : Meaning := fun text index => TextNumber .strings text index s

variable {input : Input} {s t : MapState} {bytes : Bytes}

theorem Later.texts (h : Later s t) : Keeps s.texts t.texts := fun _ _ hnumber => hnumber.mono h

theorem Later.scripts (h : Later s t) : Keeps s.map.meaning t.map.meaning :=
  fun _ _ hnumber => h.numbers _ _ hnumber

/-! ## Lists -/

/-- If each pair of two lists has something in between, there is a list in between. -/
theorem forall₂_between {α β γ : Type} {P : γ → β → Prop} {R : α → γ → Prop} {xs : List α}
    {ys : List β} (h : List.Forall₂ (fun a b => ∃ c, R a c ∧ P c b) xs ys) :
    ∃ zs, List.Forall₂ R xs zs ∧ List.Forall₂ P zs ys := by
  induction h with
  | nil => exact ⟨[], .nil, .nil⟩
  | cons hab _ ih =>
    obtain ⟨c, hac, hcb⟩ := hab
    obtain ⟨zs, hxs, hys⟩ := ih
    exact ⟨c :: zs, .cons hac hxs, .cons hcb hys⟩

/-! ## Responses -/

/-- The fields of a response that has these numbers. -/
def responseFields (read : UInt16 × UInt16) : List Field := [.word read.1, .word read.2]

theorem buildResponse_says {r : Response} {fields : List Field}
    (h : Yields (buildResponse (compileScript input) r) s fields t) :
    Later s t ∧ ∃ read, ResponseSays t.texts t.map.meaning r read ∧ responseFields read = fields := by
  have hlater := ((buildResponse_replays compileScript_replays r).moves h).follows.later
  simp only [buildResponse, yields_bind, yields_pure] at h
  obtain ⟨label, u, hlabel, script, _, hscript, rfl, rfl⟩ := h
  have hmoves := ((compileScript_replays r.script).moves hscript).follows.later
  exact ⟨hlater, (label, script), ⟨(internOnMap_writes input hlabel).1.mono hmoves,
    compileScript_finds hscript⟩, rfl⟩

theorem buildResponses_say {responses : List Response} {fields : List (List Field)}
    (h : Yields (responses.mapM (buildResponse (compileScript input))) s fields t) :
    Later s t ∧ ∃ read, List.Forall₂ (ResponseSays t.texts t.map.meaning) responses read ∧
      read.map responseFields = fields := by
  obtain ⟨hlater, hall⟩ := later_mapM (fun r part u => ∃ read,
      ResponseSays u.texts u.map.meaning r read ∧ responseFields read = part)
    (fun r part u v huv hresponse => by
      obtain ⟨read, hsays, heq⟩ := hresponse
      exact ⟨read, hsays.mono huv.texts huv.scripts, heq⟩)
    (fun r u part v h => buildResponse_says h) h
  obtain ⟨read, hsays, hfields⟩ := forall₂_between hall
  exact ⟨hlater, read, hsays, List.forall₂_eq_eq_eq ▸ List.forall₂_map_left_iff.2 hfields⟩

theorem widthOf_responses (read : List (UInt16 × UInt16)) :
    widthOf (read.map responseFields).flatten = 4 * read.length := by
  induction read with
  | nil => rfl
  | cons first rest ih =>
    rw [List.map_cons, List.flatten_cons, widthOf_append, ih, List.length_cons, Nat.mul_succ,
      Nat.add_comm]
    rfl

theorem responses_fit (read : List (UInt16 × UInt16)) :
    ∀ field ∈ (read.map responseFields).flatten, field.Fits := by
  intro field hfield
  simp only [List.mem_flatten, List.mem_map, responseFields] at hfield
  obtain ⟨_, ⟨_, -, rfl⟩, hfield⟩ := hfield
  simp only [List.mem_cons, List.not_mem_nil, or_false] at hfield
  rcases hfield with rfl | rfl <;> exact trivial

theorem reads_responses (read : List (UInt16 × UInt16)) :
    Reads (many responseReader read.length) (contentsOf (read.map responseFields).flatten) read := by
  have hall : List.Forall₂ (Reads responseReader)
      (read.map fun pair => contentsOf (responseFields pair)) read := by
    rw [List.forall₂_map_left_iff]
    exact List.forall₂_same.2 fun pair _ =>
      (reads_wordField pair.1).bind (reads_wordField pair.2).map
  rw [← List.flatMap_def, contentsOf, List.flatMap_assoc, List.flatMap_def]
  exact reads_many hall

/-! ## Screens -/

theorem reads_count {count : Nat} (h : count ≤ 255) :
    Reads byteNumber (Field.byte (UInt8.ofNat count)).image count := by
  have hread := (reads_byteField (UInt8.ofNat count)).map (f := UInt8.toNat)
  rwa [UInt8.toNat_ofNat_of_lt' (Nat.lt_succ_of_le h)] at hread

namespace ReadScreen

variable {read : ReadScreen}

/-- The fields of a screen before its messages. -/
def fixedFields (read : ReadScreen) : List Field :=
  [.word read.title, .word read.border, .byte read.alignment, .byte 0,
    .byte (UInt8.ofNat read.messages.length), .byte read.responseType,
    .byte (UInt8.ofNat read.responses.length), .byte read.entity, .byte read.portrait,
    .byte read.emote]

/-- The fields of a screen that says this. -/
def fields (read : ReadScreen) : List Field :=
  read.fixedFields ++ read.messages.map (fun id => .word id) ++
    (read.responses.map responseFields).flatten

theorem widthOf_fields (read : ReadScreen) :
    widthOf read.fields = partsLength read.messages.length read.responses.length := by
  simp only [fields, fixedFields, widthOf_append, widthOf_responses, widthOf_cons, widthOf_nil,
    Field.width, widthOf_map (f := fun id => Field.word id) 2 (fun _ => rfl), partsLength]

theorem fields_fit : ∀ field ∈ read.fields, field.Fits := by
  intro field hfield
  simp only [fields, List.mem_append] at hfield
  rcases hfield with (hfixed | hmessage) | hresponse
  · have hall : ∀ field ∈ read.fixedFields, field.Fits := by
      simp only [fixedFields, List.forall_mem_cons, Field.Fits, List.not_mem_nil,
        IsEmpty.forall_iff, implies_true, and_true]
    exact hall field hfixed
  · obtain ⟨_, -, rfl⟩ := List.mem_map.1 hmessage
    trivial
  · exact responses_fit _ field hresponse

/-- The bytes of a screen that says this. -/
def image (read : ReadScreen) : List UInt8 :=
  let length := partsLength read.messages.length read.responses.length
  contentsOf read.fields ++ List.replicate (paddedLength length - length) 0

/-- The counts of a screen fit their bytes. -/
structure Small (read : ReadScreen) : Prop where
  messages : read.messages.length ≤ 255
  responses : read.responses.length ≤ 255

theorem Small.encode_fields (h : read.Small) :
    Record.encode (partsLength read.messages.length read.responses.length) read.fields =
      .ok read.image.toArray := by
  have hword : partsLength read.messages.length read.responses.length < wordLimit := by
    have hmessages := h.messages
    have hresponses := h.responses
    unfold partsLength
    change _ < 18446744073709551616
    omega
  have hwidth := widthOf_fields read
  rw [Record.encode_eq (Nat.le_of_eq hwidth) (hwidth ▸ hword) fields_fit, hwidth]
  rfl

theorem Small.reads_image (h : read.Small) : Reads reader read.image read := by
  simp only [image, fields, fixedFields, contentsOf_append, contentsOf_cons, List.append_assoc]
  refine (reads_wordField _).bind <| (reads_wordField _).bind <| (reads_byteField _).bind ?_
  refine (reads_zeros 1).bind <| (reads_count h.messages).bind <| (reads_byteField _).bind ?_
  refine (reads_count h.responses).bind <| (reads_byteField _).bind <| (reads_byteField _).bind ?_
  refine (reads_byteField _).bind ?_
  exact (ReadMap.reads_words _).bind <| (reads_responses _).bind (reads_zeros _).map

end ReadScreen

theorem buildScreen_reads {screen : Screen} {context : String}
    (h : Yields (buildScreen (compileScript input) screen context) s bytes t) :
    Later s t ∧ ∃ read, ScreenSays t.texts t.map.meaning screen read ∧
      Reads ReadScreen.reader bytes.toList read := by
  have hlater := ((buildScreen_replays compileScript_replays screen context).moves h).follows.later
  obtain ⟨fixed, title, u, messages, v, responses, hfixed, htitle, hmessages, hresponses,
    hencode⟩ := yields_buildScreen h
  obtain ⟨huv, hmessages⟩ := texts_numbered input hmessages
  obtain ⟨hvt, responses, hsays, rfl⟩ := buildResponses_say hresponses
  simp only [Screen.fixedFields, bind_eq_ok, pure_eq_ok] at hfixed
  obtain ⟨entity, -, portrait, -, border, -, alignment, -, responseType, -, messageCount,
    hmessageCount, responseCount, hresponseCount, rfl⟩ := hfixed
  let read : ReadScreen := {
    title, border, alignment, responseType, entity, portrait, messages, responses
    emote := screen.emote.getD 0 }
  have hmessageCount : messageCount.toNat = read.messages.length := by
    rw [byteOf_eq_ok hmessageCount, hmessages.length_eq]
  have hresponseCount : responseCount.toNat = read.responses.length := by
    rw [byteOf_eq_ok hresponseCount, hsays.length_eq]
  have hsmall : read.Small := {
    messages := hmessageCount ▸ Nat.le_of_lt_succ messageCount.toNat_lt
    responses := hresponseCount ▸ Nat.le_of_lt_succ responseCount.toNat_lt }
  rw [hmessages.length_eq, hsays.length_eq,
    show messageCount = UInt8.ofNat read.messages.length by rw [← hmessageCount, UInt8.ofNat_toNat],
    show responseCount = UInt8.ofNat read.responses.length by
      rw [← hresponseCount, UInt8.ofNat_toNat]] at hencode
  obtain rfl := Except.ok.inj (hsmall.encode_fields.symm.trans hencode)
  have htitle := ((internOnMap_writes input htitle).1.mono huv).mono hvt
  have hmessages := hmessages.imp fun _ _ hnumber => hnumber.mono hvt
  exact ⟨hlater, read, ⟨⟨_, screen.titled, htitle⟩, hmessages, hsays⟩, hsmall.reads_image⟩

/-! ## Dialogs -/

theorem toList_dialogHeader {key : String} {count : UInt32} {header : Bytes}
    (h : Record.encode 36 [.chars key 32, .long count] = .ok header) :
    header.toList = (Field.chars key 32).image ++ (Field.long count).image := by
  rw [Record.encode_full (by simp only [widthOf_cons, widthOf_nil, Field.width]) (by decide)
    (by decide) (by simp [Field.Fits])] at h
  obtain rfl := Except.ok.inj h
  simp only [contentsOf_cons]
  rfl

/-- The record of a dialog has its screens one behind the other, without anything else. -/
theorem composeDialog_reads {key name : String} {screens : List Screen}
    (hfew : screens.length < 2 ^ 32)
    (h : Yields (composeDialog (compileScript input) key name screens) s bytes t) :
    ∃ read, ReadDialog.reader.readAll? bytes = some read ∧ read.key = ReadMap.zeroFilled key 32 ∧
      List.Forall₂ (ScreenSays t.texts t.map.meaning) screens read.screens := by
  simp only [composeDialog, yields_bind, yields_except, yields_pure] at h
  obtain ⟨header, _, ⟨hheader, rfl⟩, bodies, t, hbodies, rfl, rfl⟩ := h
  -- what the numbers on a screen mean stays true while the screens behind it are built
  obtain ⟨-, hall⟩ := later_mapM (fun (q : Screen × Nat) (body : Bytes) u =>
      ∃ read, ScreenSays u.texts u.map.meaning q.1 read ∧ Reads ReadScreen.reader body.toList read)
    (fun _ _ _ _ huv hscreen => by
      obtain ⟨read, hsays, hreads⟩ := hscreen
      exact ⟨read, hsays.mono huv.texts huv.scripts, hreads⟩)
    (fun _ _ _ _ h => buildScreen_reads h) hbodies
  rw [← List.forall₂_map_left_iff (f := Prod.fst)
    (R := fun (screen : Screen) (body : Bytes) => ∃ read,
      ScreenSays t.texts t.map.meaning screen read ∧ Reads ReadScreen.reader body.toList read),
    List.zipIdx_map_fst] at hall
  obtain ⟨screensRead, hsays, hreads⟩ := forall₂_between hall
  have hcount : (UInt32.ofNat screens.length).toNat = screensRead.length := by
    rw [UInt32.toNat_ofNat_of_lt' hfew, hsays.length_eq]
  have hscreens : Reads (many ReadScreen.reader (UInt32.ofNat screens.length).toNat)
      (bodies.flatMap Array.toList) screensRead := by
    rw [hcount, List.flatMap_def]
    exact reads_many (List.forall₂_map_left_iff.2 hreads.flip)
  have hdialog : Reads ReadDialog.reader _ ⟨ReadMap.zeroFilled key 32, screensRead⟩ :=
    (reads_chars key 32).bind <| (reads_longField _).bind hscreens.map
  refine ⟨_, hdialog.readAll? ?_, rfl, hsays⟩
  rw [Bytes.toList_concat, toList_dialogHeader hheader, List.append_assoc]

/-! ## Serial dialogs -/

theorem toList_serialDialog {key : String} {message : UInt16} {answers : UInt8}
    {read : List (UInt16 × UInt16)} (hfew : read.length ≤ 255)
    (h : Record.encode (36 + 4 * read.length) ([.chars key 32, .word message, .byte answers,
      .byte (UInt8.ofNat read.length)] ++ (read.map responseFields).flatten) = .ok bytes) :
    bytes.toList = (Field.chars key 32).image ++ ((Field.word message).image ++
      ((Field.byte answers).image ++ ((Field.byte (UInt8.ofNat read.length)).image ++
        contentsOf (read.map responseFields).flatten))) := by
  have hwidth : widthOf ([.chars key 32, .word message, .byte answers,
      .byte (UInt8.ofNat read.length)] ++ (read.map responseFields).flatten) =
      36 + 4 * read.length := by
    simp only [widthOf_append, widthOf_responses, widthOf_cons, widthOf_nil, Field.width]
  have hfixed : ∀ field ∈ [Field.chars key 32, .word message, .byte answers,
      .byte (UInt8.ofNat read.length)], field.Fits := by
    simp [Field.Fits]
  have hword : 36 + 4 * read.length < wordLimit := by
    change _ < 18446744073709551616
    omega
  rw [Record.encode_full hwidth (by omega) hword
    (List.forall_mem_append.2 ⟨hfixed, responses_fit read⟩)] at h
  obtain rfl := Except.ok.inj h
  simp only [contentsOf_append, contentsOf_cons, List.append_assoc]
  rfl

theorem composeSerialDialog_reads {name : String} {dialog : SerialDialog}
    (hfew : dialog.answers.responses.length ≤ 255)
    (h : Yields (composeSerialDialog (compileScript input) name dialog) s bytes t) :
    bytes.size = 36 + 4 * dialog.answers.responses.length ∧
    ∃ read, ReadSerialDialog.reader.readAll? bytes = some read ∧
      read.key = ReadMap.zeroFilled (serialDialogKey name) 32 ∧
      t.texts ("\n".intercalate dialog.messages) read.message ∧
      read.answers = dialog.answers.code ∧
      List.Forall₂ (ResponseSays t.texts t.map.meaning) dialog.answers.responses
        read.responses := by
  simp only [composeSerialDialog, yields_bind, yields_except] at h
  obtain ⟨message, u, hmessage, responses, v, hresponses, hencode, rfl⟩ := h
  obtain ⟨huv, read, hread, rfl⟩ := buildResponses_say hresponses
  have hmessage := (internOnMap_writes input hmessage).1.mono huv
  have hsize := Record.size_of_encode hencode
  rw [paddedLength_of_dvd (by omega)] at hsize
  rw [hread.length_eq] at hfew hencode
  have hdialog : Reads ReadSerialDialog.reader _
      ⟨ReadMap.zeroFilled (serialDialogKey name) 32, message, dialog.answers.code, read⟩ :=
    (reads_chars _ 32).bind <| (reads_wordField _).bind <| (reads_byteField _).bind <|
      (reads_count hfew).bind (reads_responses read).map
  exact ⟨hsize, _, hdialog.readAll? (toList_serialDialog hfew hencode), rfl, hmessage, rfl, hread⟩

end GameBundle
