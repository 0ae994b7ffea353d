import Rc2Compute.Session.Connection
import Rc2Compute.Wire.Documents

/-!
# What the client reads

The handlers build a document for each message, print it and frame it.  The
bytes determine the messages, up to what no document says: who wrote a text,
and the number of an image batch that is not positive.
-/

namespace Rc2Compute.Session

open Format (BasicJson Canonical Everywhere EverywhereOf Exact ascii dump
  setField)
open Wire (Transferable stream)

/-! ## Objects -/

/-- An object with these fields. -/
def objectOf : List (String × BasicJson) → List (Bytes × BasicJson)
  | [] => []
  | (key, value) :: fields => setField (octets key) value (objectOf fields)

theorem lookup_setField (key key' : Bytes) (value : BasicJson)
    (fields : List (Bytes × BasicJson)) :
    (setField key value fields).lookup key' =
      if key' = key then some value else fields.lookup key' := by
  induction fields with
  | nil => rw [setField, lookup_cons_eq]
  | cons field fields ih =>
      obtain ⟨k, v⟩ := field
      rw [setField]
      by_cases hlt : key < k
      · rw [if_pos hlt, lookup_cons_eq]
      · rw [if_neg hlt]
        by_cases heq : key = k
        · rw [if_pos heq, lookup_cons_eq, lookup_cons_eq, heq]
          by_cases h : key' = k
          · rw [if_pos h, if_pos h]
          · rw [if_neg h, if_neg h, if_neg h]
        · rw [if_neg heq, lookup_cons_eq, lookup_cons_eq, ih]
          by_cases h : key' = k
          · rw [if_pos h, if_pos h, if_neg fun hkey => heq (hkey.symm.trans h)]
          · rw [if_neg h, if_neg h]

theorem octets_inj {s s' : String} (hs : ByteText s) (hs' : ByteText s')
    (h : octets s = octets s') : s = s' := by
  rw [← text_octets hs, h, text_octets hs']

/-- A field is found under its name. -/
theorem lookup_objectOf {fields : List (String × BasicJson)} {key : String}
    (hfields : ∀ field ∈ fields, ByteText field.1) (hkey : ByteText key) :
    (objectOf fields).lookup (octets key) = fields.lookup key := by
  induction fields with
  | nil => rfl
  | cons field fields ih =>
      obtain ⟨k, v⟩ := field
      have hk : ByteText k := hfields _ List.mem_cons_self
      rw [objectOf, lookup_setField,
        ih fun field hmem => hfields field (List.mem_cons_of_mem _ hmem),
        lookup_cons_eq]
      by_cases h : key = k
      · rw [h, if_pos rfl, if_pos rfl]
      · rw [if_neg h, if_neg fun heq => h (octets_inj hkey hk heq)]

/-- A field that may be missing. -/
def optionalField (key : String) (value : Option BasicJson) :
    List (String × BasicJson) :=
  (value.map (key, ·)).toList

theorem lookup_optionalField (key key' : String) (value : Option BasicJson) :
    (optionalField key value).lookup key' =
      if key' = key then value else none := by
  cases value with
  | none => simp [optionalField]
  | some value => exact lookup_cons_eq key key' value []

/-! ## Messages -/

section message

variable {ν : Type} (encode : ν → BasicJson)

/-- The `msg` field. -/
def Message.kind : Message ν → String
  | .results _ _ _ _ => "results"
  | .error _ _ _ => "error"
  | .execComplete _ _ _ _ _ _ => "execComplete"
  | .showoutput _ => "showoutput"
  | .variableupdate _ _ _ => "variableupdate"
  | .variablevalue _ _ _ => "variablevalue"
  | .help _ _ => "help"
  | .openresponse _ _ => "openresponse"

/-- The other fields, as the handlers build them: `formatStringAsJson`,
`formatErrorAsJson`, `acknowledgeExecComplete` with `addImagesToJson`,
`handleExecComplete`, `handleListVariablesCommand`,
`handleGetVariableCommand`, `handleHelpCommand` and `handleOpenCommand`. -/
def Message.fields : Message ν → List (String × BasicJson)
  | .results string isError queryId _ =>
      [("string", .string (octets string)),
        (if isError then "stderr" else "stdout", .boolean true)] ++
      optionalField "queryId" (queryId.map .number_integer)
  | .error errorCode errorDetails queryId =>
      [("errorCode", .number_integer errorCode),
        ("errorDetails", .string (octets errorDetails))] ++
      optionalField "queryId" (queryId.map .number_integer)
  | .execComplete startTime queryId clientData expectShowOutput images
      imgBatch =>
      [("startTime", .string (octets startTime))] ++
      optionalField "queryId" (queryId.map .number_integer) ++
      optionalField "clientData" (clientData.map ofJson) ++
      [("expectShowOutput", .boolean expectShowOutput)] ++
      optionalField "images" (if images.length > 0 then
        some (.array (images.map .number_integer)) else none) ++
      optionalField "imgBatch" (if imgBatch > 0 then
        some (.number_integer imgBatch) else none)
  | .showoutput file =>
      [("fileId", .number_integer file.id),
        ("fileName", .string (octets file.name)),
        ("fileVersion", .number_integer file.version)]
  | .variableupdate vars delta clientData =>
      [("variables", encode vars), ("delta", .boolean delta)] ++
      optionalField "clientData" (clientData.map ofJson)
  | .variablevalue name value startTime =>
      [("name", .string (octets name)), ("value", encode value),
        ("startTime", .string (octets startTime))]
  | .help topic paths =>
      [("topic", .string (octets topic)),
        ("paths", .array (paths.map fun path => .string (octets path)))]
  | .openresponse success errorMessage =>
      [("success", .boolean success)] ++
      optionalField "errorMessage"
        (errorMessage.map fun what => .string (octets what))

/-- The document of a message. -/
def Message.document (m : Message ν) : BasicJson :=
  .object (objectOf (("msg", .string (ascii m.kind)) :: m.fields encode))

/-- The message without what its document does not say. -/
def Message.visible : Message ν → Message ν
  | .results string isError queryId _ =>
      .results string isError queryId .session
  | .execComplete startTime queryId clientData expectShowOutput images
      imgBatch =>
      .execComplete startTime queryId clientData expectShowOutput images
        (max imgBatch 0)
  | m => m

/-- Every character of every text of a message stands for a byte. -/
def Message.Plain : Message ν → Prop
  | .results string _ _ _ => ByteText string
  | .error _ errorDetails _ => ByteText errorDetails
  | .execComplete startTime _ clientData _ _ _ =>
      ByteText startTime ∧ ∀ data ∈ clientData, PlainJson data
  | .showoutput file => ByteText file.name
  | .variableupdate _ _ clientData => ∀ data ∈ clientData, PlainJson data
  | .variablevalue name _ startTime => ByteText name ∧ ByteText startTime
  | .help topic paths => ByteText topic ∧ ∀ path ∈ paths, ByteText path
  | .openresponse _ errorMessage => ∀ what ∈ errorMessage, ByteText what

variable {encode}

/-- The names of the other fields. -/
def fieldNames : List String :=
  ["string", "stdout", "stderr", "queryId", "errorCode",
    "errorDetails", "startTime", "clientData", "expectShowOutput", "images",
    "imgBatch", "fileId", "fileName", "fileVersion", "variables", "delta",
    "name", "value", "topic", "paths", "success", "errorMessage"]

theorem byteText_of_fieldNames : ∀ key ∈ fieldNames, ByteText key := by
  decide

theorem ne_msg_of_fieldNames : ∀ key ∈ fieldNames, key ≠ "msg" := by
  decide

theorem Message.byteText_kind (m : Message ν) : ByteText m.kind := by
  have hkinds : ∀ kind ∈ ["results", "error", "execComplete", "showoutput",
      "variableupdate", "variablevalue", "help", "openresponse"],
      ByteText kind := by decide
  refine hkinds _ ?_
  cases m <;> simp [Message.kind]

theorem mem_optionalField {field : String × BasicJson} {key : String}
    {value : Option BasicJson} (h : field ∈ optionalField key value) :
    field.1 = key := by
  rw [optionalField, Option.mem_toList, Option.map_eq_some_iff] at h
  obtain ⟨-, -, rfl⟩ := h
  rfl

/-- All fields are named in the list. -/
def Named (fields : List (String × BasicJson)) : Prop :=
  ∀ field ∈ fields, field.1 ∈ fieldNames

theorem named_append {fields more : List (String × BasicJson)} :
    Named (fields ++ more) ↔ Named fields ∧ Named more :=
  List.forall_mem_append

theorem named_cons {field : String × BasicJson}
    {fields : List (String × BasicJson)} :
    Named (field :: fields) ↔ field.1 ∈ fieldNames ∧ Named fields :=
  List.forall_mem_cons

theorem named_nil : Named [] := fun _ h => absurd h List.not_mem_nil

theorem named_optionalField {key : String} (hkey : key ∈ fieldNames)
    (value : Option BasicJson) : Named (optionalField key value) :=
  fun _ h => mem_optionalField h ▸ hkey

theorem Message.named_fields (m : Message ν) : Named (m.fields encode) := by
  cases m with
  | results string isError queryId origin =>
      simp only [Message.fields, named_append, named_cons]
      refine ⟨⟨by decide, ?_, named_nil⟩, named_optionalField (by decide) _⟩
      cases isError <;> decide
  | error errorCode errorDetails queryId =>
      simp only [Message.fields, named_append, named_cons]
      exact ⟨⟨by decide, by decide, named_nil⟩,
        named_optionalField (by decide) _⟩
  | execComplete startTime queryId clientData expectShowOutput images
      imgBatch =>
      simp only [Message.fields, named_append, named_cons]
      exact ⟨⟨⟨⟨⟨⟨by decide, named_nil⟩, named_optionalField (by decide) _⟩,
        named_optionalField (by decide) _⟩, by decide, named_nil⟩,
        named_optionalField (by decide) _⟩, named_optionalField (by decide) _⟩
  | showoutput file =>
      simp only [Message.fields, named_cons]
      exact ⟨by decide, by decide, by decide, named_nil⟩
  | variableupdate vars delta clientData =>
      simp only [Message.fields, named_append, named_cons]
      exact ⟨⟨by decide, by decide, named_nil⟩,
        named_optionalField (by decide) _⟩
  | variablevalue name value startTime =>
      simp only [Message.fields, named_cons]
      exact ⟨by decide, by decide, by decide, named_nil⟩
  | help topic paths =>
      simp only [Message.fields, named_cons]
      exact ⟨by decide, by decide, named_nil⟩
  | openresponse success errorMessage =>
      simp only [Message.fields, named_append, named_cons]
      exact ⟨⟨by decide, named_nil⟩, named_optionalField (by decide) _⟩

/-! ## What the fields determine -/

theorem map_number_inj {n n' : Option ℤ}
    (h : n.map BasicJson.number_integer = n'.map .number_integer) :
    n = n' :=
  Option.map_injective (fun _ _ => BasicJson.number_integer.inj) h

theorem map_ofJson_inj {data data' : Option Json}
    (hdata : ∀ d ∈ data, PlainJson d) (hdata' : ∀ d ∈ data', PlainJson d)
    (h : data.map ofJson = data'.map ofJson) : data = data' := by
  have hback : ∀ data : Option Json, (∀ d ∈ data, PlainJson d) →
      (data.map ofJson).map toJson = data := by
    intro data hdata
    cases data with
    | none => rfl
    | some d => exact congrArg some (toJson_ofJson (hdata d rfl))
  rw [← hback data hdata, h, hback data' hdata']

theorem images_inj {images images' : List ℤ}
    (h : (if images.length > 0 then
        some (BasicJson.array (images.map .number_integer)) else none) =
      if images'.length > 0 then
        some (BasicJson.array (images'.map .number_integer)) else none) :
    images = images' := by
  have hmap : Function.Injective (List.map BasicJson.number_integer) :=
    List.map_injective_iff.mpr fun _ _ => BasicJson.number_integer.inj
  split at h
  next =>
    split at h
    next => exact hmap (BasicJson.array.inj (Option.some.inj h))
    next => cases h
  next hnone =>
    split at h
    next => cases h
    next hnone' =>
      rw [List.eq_nil_of_length_eq_zero (by omega : images.length = 0),
        List.eq_nil_of_length_eq_zero (by omega : images'.length = 0)]

theorem imgBatch_inj {imgBatch imgBatch' : ℤ}
    (h : (if imgBatch > 0 then
        some (BasicJson.number_integer imgBatch) else none) =
      if imgBatch' > 0 then
        some (BasicJson.number_integer imgBatch') else none) :
    max imgBatch 0 = max imgBatch' 0 := by
  split at h
  next =>
    split at h
    next => rw [BasicJson.number_integer.inj (Option.some.inj h)]
    next => cases h
  next =>
    split at h
    next => cases h
    next => omega

theorem paths_inj {paths paths' : List String}
    (hpaths : ∀ path ∈ paths, ByteText path)
    (hpaths' : ∀ path ∈ paths', ByteText path)
    (h : paths.map (fun path => BasicJson.string (octets path)) =
      paths'.map fun path => .string (octets path)) : paths = paths' := by
  induction paths generalizing paths' with
  | nil => exact (List.map_eq_nil_iff.mp h.symm).symm
  | cons path paths ih =>
      cases paths' with
      | nil => cases h
      | cons path' paths' =>
          rw [List.map_cons, List.map_cons, List.cons.injEq,
            BasicJson.string.injEq] at h
          rw [octets_inj (hpaths _ List.mem_cons_self)
              (hpaths' _ List.mem_cons_self) h.1,
            ih (fun p hp => hpaths p (List.mem_cons_of_mem _ hp))
              (fun p hp => hpaths' p (List.mem_cons_of_mem _ hp)) h.2]

theorem errorMessage_inj {what what' : Option String}
    (hwhat : ∀ w ∈ what, ByteText w) (hwhat' : ∀ w ∈ what', ByteText w)
    (h : what.map (fun w => BasicJson.string (octets w)) =
      what'.map fun w => .string (octets w)) : what = what' := by
  cases what with
  | none => exact (Option.map_eq_none_iff.mp h.symm).symm
  | some w =>
      cases what' with
      | none => cases h
      | some w' =>
          have hoctets := BasicJson.string.inj (Option.some.inj h)
          rw [octets_inj (hwhat w rfl) (hwhat' w' rfl) hoctets]

/-- The fields of two messages say the same. -/
def SameFields (encode : ν → BasicJson) (m m' : Message ν) : Prop :=
  ∀ key ∈ fieldNames,
    (m.fields encode).lookup key = (m'.fields encode).lookup key

theorem SameFields.results {string string' : String} {isError isError' : Bool}
    {queryId queryId' : Option ℤ} {origin origin' : Origin}
    (hstring : ByteText string) (hstring' : ByteText string')
    (h : SameFields encode (.results string isError queryId origin)
      (.results string' isError' queryId' origin')) :
    string = string' ∧ isError = isError' ∧ queryId = queryId' := by
  have hs := h "string" (by decide)
  have herror := h "stderr" (by decide)
  have hquery := h "queryId" (by decide)
  simp only [Message.fields, List.lookup_append, lookup_optionalField,
    lookup_cons_eq] at hs herror hquery
  refine ⟨octets_inj hstring hstring' (by simpa using hs), ?_, ?_⟩
  · cases isError <;> cases isError' <;> simp at herror ⊢
  · refine map_number_inj ?_
    cases isError <;> cases isError' <;> simpa using hquery

theorem SameFields.execComplete {startTime startTime' : String}
    {queryId queryId' : Option ℤ} {clientData clientData' : Option Json}
    {expectShowOutput expectShowOutput' : Bool} {images images' : List ℤ}
    {imgBatch imgBatch' : ℤ}
    (hm : ByteText startTime ∧ ∀ data ∈ clientData, PlainJson data)
    (hm' : ByteText startTime' ∧ ∀ data ∈ clientData', PlainJson data)
    (h : SameFields encode
      (.execComplete startTime queryId clientData expectShowOutput images
        imgBatch)
      (.execComplete startTime' queryId' clientData' expectShowOutput' images'
        imgBatch')) :
    startTime = startTime' ∧ queryId = queryId' ∧ clientData = clientData' ∧
      expectShowOutput = expectShowOutput' ∧ images = images' ∧
      max imgBatch 0 = max imgBatch' 0 := by
  have hstart := h "startTime" (by decide)
  have hquery := h "queryId" (by decide)
  have hdata := h "clientData" (by decide)
  have hshow := h "expectShowOutput" (by decide)
  have himages := h "images" (by decide)
  have hbatch := h "imgBatch" (by decide)
  simp only [Message.fields, List.lookup_append, lookup_optionalField,
    lookup_cons_eq] at hstart hquery hdata hshow himages hbatch
  refine ⟨octets_inj hm.1 hm'.1 (by simpa using hstart),
    map_number_inj (by simpa using hquery),
    map_ofJson_inj hm.2 hm'.2 (by simpa using hdata),
    by simpa using hshow, images_inj ?_, imgBatch_inj ?_⟩
  · simpa using himages
  · simpa using hbatch

theorem SameFields.error {errorCode errorCode' : ℤ}
    {errorDetails errorDetails' : String} {queryId queryId' : Option ℤ}
    (hdetails : ByteText errorDetails) (hdetails' : ByteText errorDetails')
    (h : SameFields encode (.error errorCode errorDetails queryId)
      (.error errorCode' errorDetails' queryId')) :
    errorCode = errorCode' ∧ errorDetails = errorDetails' ∧
      queryId = queryId' := by
  have hcode := h "errorCode" (by decide)
  have hsame := h "errorDetails" (by decide)
  have hquery := h "queryId" (by decide)
  simp only [Message.fields, List.lookup_append, lookup_optionalField,
    lookup_cons_eq] at hcode hsame hquery
  exact ⟨by simpa using hcode,
    octets_inj hdetails hdetails' (by simpa using hsame),
    map_number_inj (by simpa using hquery)⟩

theorem SameFields.showoutput {file file' : Files.FileInfo}
    (hname : ByteText file.name) (hname' : ByteText file'.name)
    (h : SameFields encode (.showoutput file) (.showoutput file')) :
    file = file' := by
  have hid := h "fileId" (by decide)
  have hsame := h "fileName" (by decide)
  have hversion := h "fileVersion" (by decide)
  simp only [Message.fields, lookup_cons_eq] at hid hsame hversion
  have hid : file.id = file'.id := by simpa using hid
  have hversion : file.version = file'.version := by simpa using hversion
  have hsame : file.name = file'.name :=
    octets_inj hname hname' (by simpa using hsame)
  calc file = ⟨file.id, file.version, file.name⟩ := rfl
    _ = ⟨file'.id, file'.version, file'.name⟩ := by
        rw [hid, hversion, hsame]
    _ = file' := rfl

theorem SameFields.variableupdate {vars vars' : ν} {delta delta' : Bool}
    {clientData clientData' : Option Json}
    (hencode : Function.Injective encode)
    (hdata : ∀ data ∈ clientData, PlainJson data)
    (hdata' : ∀ data ∈ clientData', PlainJson data)
    (h : SameFields encode (.variableupdate vars delta clientData)
      (.variableupdate vars' delta' clientData')) :
    vars = vars' ∧ delta = delta' ∧ clientData = clientData' := by
  have hvars := h "variables" (by decide)
  have hdelta := h "delta" (by decide)
  have hsame := h "clientData" (by decide)
  simp only [Message.fields, List.lookup_append, lookup_optionalField,
    lookup_cons_eq] at hvars hdelta hsame
  exact ⟨hencode (by simpa using hvars), by simpa using hdelta,
    map_ofJson_inj hdata hdata' (by simpa using hsame)⟩

theorem SameFields.variablevalue {name name' : String} {value value' : ν}
    {startTime startTime' : String} (hencode : Function.Injective encode)
    (hm : ByteText name ∧ ByteText startTime)
    (hm' : ByteText name' ∧ ByteText startTime')
    (h : SameFields encode (.variablevalue name value startTime)
      (.variablevalue name' value' startTime')) :
    name = name' ∧ value = value' ∧ startTime = startTime' := by
  have hname := h "name" (by decide)
  have hvalue := h "value" (by decide)
  have hstart := h "startTime" (by decide)
  simp only [Message.fields, lookup_cons_eq] at hname hvalue hstart
  exact ⟨octets_inj hm.1 hm'.1 (by simpa using hname),
    hencode (by simpa using hvalue),
    octets_inj hm.2 hm'.2 (by simpa using hstart)⟩

theorem SameFields.help {topic topic' : String} {paths paths' : List String}
    (hm : ByteText topic ∧ ∀ path ∈ paths, ByteText path)
    (hm' : ByteText topic' ∧ ∀ path ∈ paths', ByteText path)
    (h : SameFields encode (.help topic paths) (.help topic' paths')) :
    topic = topic' ∧ paths = paths' := by
  have htopic := h "topic" (by decide)
  have hpaths := h "paths" (by decide)
  simp only [Message.fields, lookup_cons_eq] at htopic hpaths
  exact ⟨octets_inj hm.1 hm'.1 (by simpa using htopic),
    paths_inj hm.2 hm'.2 (by simpa using hpaths)⟩

theorem SameFields.openresponse {success success' : Bool}
    {errorMessage errorMessage' : Option String}
    (hwhat : ∀ what ∈ errorMessage, ByteText what)
    (hwhat' : ∀ what ∈ errorMessage', ByteText what)
    (h : SameFields encode (.openresponse success errorMessage)
      (.openresponse success' errorMessage')) :
    success = success' ∧ errorMessage = errorMessage' := by
  have hsuccess := h "success" (by decide)
  have hsame := h "errorMessage" (by decide)
  simp only [Message.fields, List.lookup_append, lookup_optionalField,
    lookup_cons_eq] at hsuccess hsame
  exact ⟨by simpa using hsuccess,
    errorMessage_inj hwhat hwhat' (by simpa using hsame)⟩

/-- Messages of one kind with the same fields look the same. -/
theorem SameFields.visible_eq (hencode : Function.Injective encode)
    {m m' : Message ν} (hm : m.Plain) (hm' : m'.Plain)
    (hkind : m.kind = m'.kind) (h : SameFields encode m m') :
    m.visible = m'.visible := by
  cases m with
  | results string isError queryId origin =>
      cases m' with
      | results string' isError' queryId' origin' =>
          obtain ⟨rfl, rfl, rfl⟩ := h.results hm hm'
          rfl
      | _ => simp [Message.kind] at hkind
  | error errorCode errorDetails queryId =>
      cases m' with
      | error errorCode' errorDetails' queryId' =>
          obtain ⟨rfl, rfl, rfl⟩ := h.error hm hm'
          rfl
      | _ => simp [Message.kind] at hkind
  | execComplete startTime queryId clientData expectShowOutput images
      imgBatch =>
      cases m' with
      | execComplete startTime' queryId' clientData' expectShowOutput' images'
          imgBatch' =>
          obtain ⟨rfl, rfl, rfl, rfl, rfl, hbatch⟩ := h.execComplete hm hm'
          rw [Message.visible, Message.visible, hbatch]
      | _ => simp [Message.kind] at hkind
  | showoutput file =>
      cases m' with
      | showoutput file' =>
          obtain rfl := h.showoutput hm hm'
          rfl
      | _ => simp [Message.kind] at hkind
  | variableupdate vars delta clientData =>
      cases m' with
      | variableupdate vars' delta' clientData' =>
          obtain ⟨rfl, rfl, rfl⟩ := h.variableupdate hencode hm hm'
          rfl
      | _ => simp [Message.kind] at hkind
  | variablevalue name value startTime =>
      cases m' with
      | variablevalue name' value' startTime' =>
          obtain ⟨rfl, rfl, rfl⟩ := h.variablevalue hencode hm hm'
          rfl
      | _ => simp [Message.kind] at hkind
  | help topic paths =>
      cases m' with
      | help topic' paths' =>
          obtain ⟨rfl, rfl⟩ := h.help hm hm'
          rfl
      | _ => simp [Message.kind] at hkind
  | openresponse success errorMessage =>
      cases m' with
      | openresponse success' errorMessage' =>
          obtain ⟨rfl, rfl⟩ := h.openresponse hm hm'
          rfl
      | _ => simp [Message.kind] at hkind

/-- The document of a message determines what it shows. -/
theorem Message.visible_eq_of_document (hencode : Function.Injective encode)
    {m m' : Message ν} (hm : m.Plain) (hm' : m'.Plain)
    (h : m.document encode = m'.document encode) :
    m.visible = m'.visible := by
  have byteText_msg : ByteText "msg" := by decide
  have hnamed : ∀ m : Message ν,
      ∀ field ∈ ("msg", BasicJson.string (ascii m.kind)) :: m.fields encode,
        ByteText field.1 := by
    intro m field hfield
    rcases List.mem_cons.mp hfield with rfl | hfield
    · exact byteText_msg
    · exact byteText_of_fieldNames _ (m.named_fields field hfield)
  have hlookup : ∀ key, ByteText key →
      (("msg", BasicJson.string (ascii m.kind)) ::
          m.fields encode).lookup key =
        (("msg", BasicJson.string (ascii m'.kind)) ::
          m'.fields encode).lookup key := by
    intro key hbytes
    rw [← lookup_objectOf (hnamed m) hbytes,
      ← lookup_objectOf (hnamed m') hbytes, BasicJson.object.inj h]
  have hkind : m.kind = m'.kind := by
    have hmsg := hlookup "msg" byteText_msg
    rw [lookup_cons_eq, lookup_cons_eq, if_pos rfl, if_pos rfl,
      Option.some.injEq, BasicJson.string.injEq] at hmsg
    exact octets_inj m.byteText_kind m'.byteText_kind hmsg
  refine SameFields.visible_eq hencode hm hm' hkind fun key hkey => ?_
  have hne := ne_msg_of_fieldNames key hkey
  have hrest := hlookup key (byteText_of_fieldNames key hkey)
  rwa [lookup_cons_eq, lookup_cons_eq, if_neg hne, if_neg hne] at hrest

/-! ## The bytes -/

/-- A message that can be sent: its texts are byte strings, the values of its
fields are documents with exact numbers, and its document fits a frame. -/
structure Message.Deliverable (encode : ν → BasicJson) (m : Message ν) :
    Prop where
  plain : m.Plain
  canonical : ∀ field ∈ m.fields encode, Canonical field.2
  exact : ∀ field ∈ m.fields encode, Exact field.2
  fits : (dump (m.document encode)).length < 2 ^ 32 - 8

theorem objectOf_sorted (fields : List (String × BasicJson)) :
    ((objectOf fields).map Prod.fst).Pairwise (· < ·) := by
  induction fields with
  | nil => exact List.Pairwise.nil
  | cons field fields ih => exact Format.setField_sorted _ _ ih

theorem everywhereOf_objectOf {P : BasicJson → Prop}
    {fields : List (String × BasicJson)}
    (h : ∀ field ∈ fields, Everywhere P field.2) :
    EverywhereOf P (objectOf fields) := by
  induction fields with
  | nil => rw [objectOf, EverywhereOf]; trivial
  | cons field fields ih =>
      exact Format.everywhereOf_setField (h _ List.mem_cons_self)
        (ih fun field hmem => h field (List.mem_cons_of_mem _ hmem))

theorem Message.everywhere_document {P : BasicJson → Prop} {m : Message ν}
    (hstring : ∀ s, P (.string s)) (hobject : P (m.document encode))
    (h : ∀ field ∈ m.fields encode, Everywhere P field.2) :
    Everywhere P (m.document encode) := by
  rw [Message.document, Everywhere]
  refine ⟨hobject, everywhereOf_objectOf fun field hmem => ?_⟩
  rcases List.mem_cons.mp hmem with rfl | hmem
  · rw [Everywhere]
    exact hstring _
  · exact h field hmem

theorem Message.Deliverable.transferable {m : Message ν}
    (h : m.Deliverable encode) : Transferable (m.document encode) where
  canonical := everywhere_document (fun _ => trivial) (objectOf_sorted _)
    h.canonical
  exact := everywhere_document (fun _ => trivial) trivial h.exact
  fits := h.fits

variable (encode) in
/-- The bytes of messages that have been sent. -/
def transcript (sent : List (Message ν)) : Bytes :=
  stream (sent.map fun m => dump (m.document encode))

/-- The bytes a session writes determine its messages, their order and all
they show. -/
theorem visible_of_transcript (hencode : Function.Injective encode)
    {sent sent' : List (Message ν)}
    (hsent : ∀ m ∈ sent, m.Deliverable encode)
    (hsent' : ∀ m ∈ sent', m.Deliverable encode)
    (h : transcript encode sent = transcript encode sent') :
    sent.map Message.visible = sent'.map Message.visible := by
  have hdocuments : sent.map (Message.document encode) =
      sent'.map (Message.document encode) := by
    refine Wire.documents_inj ?_ ?_
      (by rw [List.map_map, List.map_map]; exact h)
    · intro doc hdoc
      obtain ⟨m, hm, rfl⟩ := List.mem_map.mp hdoc
      exact (hsent m hm).transferable
    · intro doc hdoc
      obtain ⟨m, hm, rfl⟩ := List.mem_map.mp hdoc
      exact (hsent' m hm).transferable
  clear h
  induction sent generalizing sent' with
  | nil =>
      rw [List.map_eq_nil_iff.mp hdocuments.symm]
  | cons m sent ih =>
      cases sent' with
      | nil => cases hdocuments
      | cons m' sent' =>
          rw [List.map_cons, List.map_cons, List.cons.injEq] at hdocuments
          rw [List.map_cons, List.map_cons,
            Message.visible_eq_of_document hencode
              (hsent m List.mem_cons_self).plain
              (hsent' m' List.mem_cons_self).plain hdocuments.1,
            ih (fun m hm => hsent m (List.mem_cons_of_mem _ hm))
              (fun m hm => hsent' m (List.mem_cons_of_mem _ hm))
              hdocuments.2]

end message

/-- A text of the console and one of the session. -/
def greeting (origin : Origin) : Message BasicJson :=
  .results "hi" false (some 5) origin

theorem greeting_deliverable (origin : Origin) :
    (greeting origin).Deliverable id := by
  have hfields : (greeting origin).fields id =
      [("string", .string (ascii "hi")), ("stdout", .boolean true),
        ("queryId", .number_integer 5)] := rfl
  have hfive : Format.ExactInteger 5 :=
    Format.exactInteger_of_natAbs_le (by decide)
  have hplain : ByteText "hi" := by decide
  refine ⟨hplain, ?_, ?_, ?_⟩
  · simp [hfields, Canonical, Everywhere, Format.SortedKeys]
  · simp [hfields, Exact, Everywhere, Format.ExactNumber, hfive]
  · change (dump (Message.document id (greeting .console))).length < _
    decide

/-- They look the same. -/
theorem visible_of_transcript_greeting :
    [greeting .console].map Message.visible =
      [greeting .session].map Message.visible :=
  visible_of_transcript Function.injective_id
    (by simpa using greeting_deliverable .console)
    (by simpa using greeting_deliverable .session) rfl

end Rc2Compute.Session
