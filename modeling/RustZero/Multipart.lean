import RustZero.Lib.Programs
import RustZero.Lib.Utf8

/-!
# Multipart forms

`MultipartForm::from_request` of `rest/src/extract.rs`.  The parser gives parts and each part gives
chunks, until they end or it fails.  The extraction runs over what it has taken in so far, which
stays there when it fails: the temporary files, by their paths, and the values of the text fields.
Creating, writing and flushing temporary files succeeds.
-/

namespace RustZero.Multipart

open Lib Std

/-- The number of values of a `usize`. -/
def usizeCount : Nat := 2 ^ 64

/-- `MultipartConfig`; the limits are `usize`. -/
structure MultipartConfig where
  maxFieldBytes : Nat
  maxFileBytes : Nat
  maxTotalBytes : Nat
  maxFieldBytes_valid : maxFieldBytes < usizeCount
  maxFileBytes_valid : maxFileBytes < usizeCount
  maxTotalBytes_valid : maxTotalBytes < usizeCount

structure RequestExtractionError where
  code : String
  source : String
  message : String
  deriving DecidableEq, Repr

namespace RequestExtractionError

def parse (source error : String) : RequestExtractionError :=
  ⟨"invalid_request", source, error⟩

def payloadTooLarge (message : String) : RequestExtractionError :=
  ⟨"payload_too_large", "multipart", message⟩

end RequestExtractionError

abbrev Bytes := List UInt8

/-- A part as the parser gives it; `breaks` is the error that its chunks end with. -/
structure Part where
  name : Option String
  fileName : Option String
  contentType : Option String
  chunks : List Bytes
  breaks : Option String

structure UploadedFile where
  fieldName : String
  fileName : String
  contentType : Option String
  size : Nat
  path : Nat
  deriving DecidableEq, Repr

structure MultipartForm where
  fields : ExtHashMap String (List String)
  files : List UploadedFile
  totalBytes : Nat

def MultipartForm.textValues (form : MultipartForm) (name : String) : List String :=
  form.fields.getD name []

/-- The bytes taken in: the temporary files by path, and the values of text fields in order. -/
structure Received where
  files : List Bytes
  values : List Bytes
  deriving DecidableEq, Repr

abbrev Extraction := EStateM RequestExtractionError Received

/-- `usize::checked_add`. -/
def checkedAdd (current additional : Nat) : Option Nat :=
  if current + additional < usizeCount then some (current + additional) else none

def checkedPayloadSize (current additional limit : Nat) (message : String) :
    Except RequestExtractionError Nat :=
  match checkedAdd current additional with
  | none => .error (.payloadTooLarge message)
  | some next => if limit < next then .error (.payloadTooLarge message) else .ok next

/-- The two checks before a chunk is taken in, of the part and of the request. -/
def checkChunk (config : MultipartConfig) (limit : Nat) (message : String)
    (current totalBytes : Nat) (chunk : Bytes) : Except RequestExtractionError (Nat × Nat) := do
  let current ← checkedPayloadSize current chunk.length limit message
  let totalBytes ← checkedPayloadSize totalBytes chunk.length config.maxTotalBytes
    "multipart request exceeds the configured aggregate limit"
  return (current, totalBytes)

/-- The result of the parser, or of a check. -/
def orFail {α : Type} : Except RequestExtractionError α → Extraction α
  | .ok value => pure value
  | .error error => throw error

/-- The end of what the parser gives. -/
def ended {α : Type} (breaks : Option String) (value : α) : Extraction α :=
  match breaks with
  | none => pure value
  | some error => throw (.parse "multipart" error)

/-- The loop over the chunks of a part, with how much of it was taken in and `total_bytes`. -/
def receiveChunks (config : MultipartConfig) (limit : Nat) (message : String)
    (write : Bytes → Received → Received) (breaks : Option String) (current totalBytes : Nat) :
    List Bytes → Extraction (Nat × Nat)
  | [] => ended breaks (current, totalBytes)
  | chunk :: chunks => do
      let (current, totalBytes) ← orFail (checkChunk config limit message current totalBytes chunk)
      modify (write chunk)
      receiveChunks config limit message write breaks current totalBytes chunks

def Received.addFile (contents : Bytes) (received : Received) : Received :=
  { received with files := received.files ++ [contents] }

def Received.addValue (value : Bytes) (received : Received) : Received :=
  { received with values := received.values ++ [value] }

def Received.writeFile (path : Nat) (chunk : Bytes) (received : Received) : Received :=
  { received with files := received.files.modify path (· ++ chunk) }

def Received.extendValue (index : Nat) (chunk : Bytes) (received : Received) : Received :=
  { received with values := received.values.modify index (· ++ chunk) }

/-- The chunks of a file, which count `file_bytes` from 0. -/
def receiveFile (config : MultipartConfig) (path : Nat) (breaks : Option String)
    (totalBytes : Nat) (chunks : List Bytes) : Extraction (Nat × Nat) :=
  receiveChunks config config.maxFileBytes "multipart file exceeds the configured limit"
    (Received.writeFile path) breaks 0 totalBytes chunks

/-- The chunks of a text field; what is checked is the length of the value so far. -/
def receiveText (config : MultipartConfig) (index : Nat) (breaks : Option String)
    (totalBytes : Nat) : List Bytes → Extraction Nat
  | [] => ended breaks totalBytes
  | chunk :: chunks => do
      let value := (← get).values.getD index []
      let (_, totalBytes) ← orFail (checkChunk config config.maxFieldBytes
        "multipart field exceeds the configured limit" value.length totalBytes chunk)
      modify (Received.extendValue index chunk)
      receiveText config index breaks totalBytes chunks

/-- `String::from_utf8` of a text field. -/
def textOf (value : Bytes) : Except RequestExtractionError String :=
  match String.fromUTF8? ⟨value.toArray⟩ with
  | some text => .ok text
  | none => .error (.parse "multipart" "text field is not valid UTF-8")

/-- A turn of the loop over the parts. -/
def receivePart (config : MultipartConfig) (form : MultipartForm) (part : Part) :
    Extraction MultipartForm := do
  let fieldName ← orFail (match part.name with
    | some name => .ok name
    | none => .error (.parse "multipart" "part is missing a content-disposition name"))
  match part.fileName with
  | some fileName =>
      let path := (← get).files.length
      modify (Received.addFile [])
      let (fileBytes, totalBytes) ←
        receiveFile config path part.breaks form.totalBytes part.chunks
      let file := ⟨fieldName, fileName, part.contentType, fileBytes, path⟩
      return { form with files := form.files ++ [file], totalBytes }
  | none =>
      let index := (← get).values.length
      modify (Received.addValue [])
      let totalBytes ← receiveText config index part.breaks form.totalBytes part.chunks
      let value ← orFail (textOf ((← get).values.getD index []))
      let values := form.fields.getD fieldName [] ++ [value]
      return { form with fields := form.fields.insert fieldName values, totalBytes }

/-- The parts the parser gives, and the error it ends with. -/
def receiveParts (config : MultipartConfig) (breaks : Option String) (form : MultipartForm) :
    List Part → Extraction MultipartForm
  | [] => ended breaks form
  | part :: parts => do
      let form ← receivePart config form part
      receiveParts config breaks form parts

/-- What comes of a request, and what was taken in for it. -/
def fromRequest (config : MultipartConfig) (parts : List Part) (breaks : Option String) :
    EStateM.Result RequestExtractionError Received MultipartForm :=
  (receiveParts config breaks ⟨∅, [], 0⟩ parts).run ⟨[], []⟩

/-! ## What was sent -/

inductive Body
  | text (value : String)
  | file (fileName : String) (contents : Bytes)

/-- A named part of a form. -/
structure Sent where
  name : String
  contentType : Option String
  body : Body

namespace Sent

def bytes (sent : Sent) : Bytes :=
  match sent.body with
  | .text value => utf8 value
  | .file _ contents => contents

def fileName (sent : Sent) : Option String :=
  match sent.body with
  | .text _ => none
  | .file fileName _ => some fileName

/-- The limit of one part. -/
def limit (config : MultipartConfig) (sent : Sent) : Nat :=
  match sent.body with
  | .text _ => config.maxFieldBytes
  | .file _ _ => config.maxFileBytes

/-- The value of a text field of a name. -/
def value? (name : String) (sent : Sent) : Option String :=
  match sent.body with
  | .text value => if sent.name = name then some value else none
  | .file _ _ => none

end Sent

/-- A part in the chunks that the parser gives of it. -/
structure Delivered where
  sent : Sent
  chunks : List Bytes
  whole : chunks.flatten = sent.bytes

def Delivered.part (delivered : Delivered) : Part where
  name := some delivered.sent.name
  fileName := delivered.sent.fileName
  contentType := delivered.sent.contentType
  chunks := delivered.chunks
  breaks := none

def totalSize (parts : List Sent) : Nat :=
  (parts.map fun sent => sent.bytes.length).sum

/-- Every part is within its limit, and all of them are within the limit of the request. -/
structure Fits (config : MultipartConfig) (parts : List Sent) : Prop where
  each : ∀ sent ∈ parts, sent.bytes.length ≤ sent.limit config
  total : totalSize parts ≤ config.maxTotalBytes

/-- An uploaded file with what its path leads to. -/
structure Upload where
  fieldName : String
  fileName : String
  contentType : Option String
  size : Nat
  contents : Option Bytes

def UploadedFile.upload (received : Received) (file : UploadedFile) : Upload :=
  ⟨file.fieldName, file.fileName, file.contentType, file.size, received.files[file.path]?⟩

def Sent.upload? (sent : Sent) : Option Upload :=
  match sent.body with
  | .text _ => none
  | .file fileName contents =>
      some ⟨sent.name, fileName, sent.contentType, contents.length, some contents⟩

/-- All that was taken in. -/
def Received.size (received : Received) : Nat :=
  (received.files.map List.length).sum + (received.values.map List.length).sum

/-- No byte beyond a limit was taken in. -/
structure Within (config : MultipartConfig) (received : Received) : Prop where
  files : ∀ file ∈ received.files, file.length ≤ config.maxFileBytes
  values : ∀ value ∈ received.values, value.length ≤ config.maxFieldBytes
  total : received.size ≤ config.maxTotalBytes

/-- The form is that of the parts. -/
structure FormOf (parts : List Sent) (form : MultipartForm) (received : Received) : Prop where
  total : form.totalBytes = totalSize parts
  texts : ∀ name, form.textValues name = parts.filterMap (Sent.value? name)
  files : form.files.map (UploadedFile.upload received) = parts.filterMap Sent.upload?

/-! ## Chunks -/

section Chunks

variable {config : MultipartConfig} {limit current additional totalBytes : Nat} {message : String}

/-- A size is checked as the sum that it is; that sums have to be below 2^64 excludes nothing. -/
theorem checkedPayloadSize_eq (word : limit < usizeCount) (current additional : Nat)
    (message : String) : checkedPayloadSize current additional limit message =
      if current + additional ≤ limit then .ok (current + additional)
      else .error (.payloadTooLarge message) := by
  rw [checkedPayloadSize, checkedAdd]
  by_cases fits : current + additional ≤ limit
  · rw [if_pos fits, if_pos (fits.trans_lt word)]
    exact if_neg (Nat.not_lt.mpr fits)
  · rw [if_neg fits]
    split_ifs
    · exact if_pos (Nat.not_le.mp fits)
    · rfl

variable (message) in
theorem checkChunk_fits (word : limit < usizeCount) {chunk : Bytes}
    (part : current + chunk.length ≤ limit)
    (total : totalBytes + chunk.length ≤ config.maxTotalBytes) :
    checkChunk config limit message current totalBytes chunk =
      .ok (current + chunk.length, totalBytes + chunk.length) := by
  rw [checkChunk, checkedPayloadSize_eq word, if_pos part,
    checkedPayloadSize_eq config.maxTotalBytes_valid, if_pos total]
  rfl

variable (message) in
theorem checkChunk_exceeds (word : limit < usizeCount) {chunk : Bytes}
    (exceeds : ¬(current + chunk.length ≤ limit ∧
      totalBytes + chunk.length ≤ config.maxTotalBytes)) :
    ∃ reason, checkChunk config limit message current totalBytes chunk =
      .error (.payloadTooLarge reason) := by
  rw [checkChunk, checkedPayloadSize_eq word, checkedPayloadSize_eq config.maxTotalBytes_valid]
  by_cases part : current + chunk.length ≤ limit
  · rw [if_pos part, if_neg fun total => exceeds ⟨part, total⟩]
    exact ⟨_, rfl⟩
  · rw [if_neg part]
    exact ⟨_, rfl⟩

/-- Chunks are put behind each other. -/
structure Appends (write : Bytes → Received → Received) : Prop where
  nil : ∀ received, write [] received = received
  append : ∀ first second received,
    write second (write first received) = write (first ++ second) received

theorem receiveChunks_cons {write : Bytes → Received → Received} {breaks : Option String}
    {chunk : Bytes} {chunks : List Bytes} {received : Received} {next : Nat × Nat}
    (checked : checkChunk config limit message current totalBytes chunk = .ok next) :
    (receiveChunks config limit message write breaks current totalBytes (chunk :: chunks)).run
      received = (receiveChunks config limit message write breaks next.1 next.2 chunks).run
        (write chunk received) := by
  have admitted : (orFail (checkChunk config limit message current totalBytes chunk)).run received =
      .ok next received := by
    rw [checked]
    rfl
  rw [receiveChunks, run_bind_ok _ admitted]
  rfl

theorem receiveChunks_refused {write : Bytes → Received → Received} {breaks : Option String}
    {chunk : Bytes} {chunks : List Bytes} {received : Received} {error : RequestExtractionError}
    (checked : checkChunk config limit message current totalBytes chunk = .error error) :
    (receiveChunks config limit message write breaks current totalBytes (chunk :: chunks)).run
      received = .error error received := by
  have refused : (orFail (checkChunk config limit message current totalBytes chunk)).run received =
      .error error received := by
    rw [checked]
    rfl
  rw [receiveChunks, run_bind_error _ refused]

section Receiving

variable {write : Bytes → Received → Received} {chunks : List Bytes}

variable (message) in
/-- A part within the limits is taken in whole. -/
theorem receiveChunks_fits (appends : Appends write) (word : limit < usizeCount)
    (received : Received) (part : current + chunks.flatten.length ≤ limit)
    (total : totalBytes + chunks.flatten.length ≤ config.maxTotalBytes) :
    (receiveChunks config limit message write none current totalBytes chunks).run received =
      .ok (current + chunks.flatten.length, totalBytes + chunks.flatten.length)
        (write chunks.flatten received) := by
  induction chunks generalizing current totalBytes received with
  | nil =>
      rw [List.flatten_nil, appends.nil]
      rfl
  | cons chunk chunks ih =>
      rw [List.flatten_cons, List.length_append, ← Nat.add_assoc] at part total
      rw [receiveChunks_cons (checkChunk_fits message word (by omega) (by omega)), ih _ part total,
        appends.append, List.flatten_cons, List.length_append, Nat.add_assoc, Nat.add_assoc]

variable (message) in
/-- Of a part beyond a limit so much is taken in as is within both. -/
theorem receiveChunks_exceeds (appends : Appends write) (word : limit < usizeCount)
    (received : Received) (part : current ≤ limit) (total : totalBytes ≤ config.maxTotalBytes)
    (exceeds : ¬(current + chunks.flatten.length ≤ limit ∧
      totalBytes + chunks.flatten.length ≤ config.maxTotalBytes)) :
    ∃ reason taken,
      (receiveChunks config limit message write none current totalBytes chunks).run received =
        .error (.payloadTooLarge reason) (write taken received) ∧
      current + taken.length ≤ limit ∧ totalBytes + taken.length ≤ config.maxTotalBytes := by
  induction chunks generalizing current totalBytes received with
  | nil => exact (exceeds ⟨part, total⟩).elim
  | cons chunk chunks ih =>
      rw [List.flatten_cons, List.length_append, ← Nat.add_assoc, ← Nat.add_assoc] at exceeds
      by_cases fits : current + chunk.length ≤ limit ∧
          totalBytes + chunk.length ≤ config.maxTotalBytes
      · obtain ⟨reason, taken, ran, part', total'⟩ :=
          ih (write chunk received) fits.1 fits.2 exceeds
        refine ⟨reason, chunk ++ taken, ?_, ?_, ?_⟩
        · rw [receiveChunks_cons (checkChunk_fits message word fits.1 fits.2), ran, appends.append]
        · rw [List.length_append]
          omega
        · rw [List.length_append]
          omega
      · obtain ⟨reason, refused⟩ := checkChunk_exceeds message word fits
        refine ⟨reason, [], ?_, part, total⟩
        rw [receiveChunks_refused refused, appends.nil]

end Receiving

theorem modify_append_nil (list : List Bytes) (index : Nat) :
    list.modify index (· ++ []) = list := by
  have same : (fun bytes : Bytes => bytes ++ []) = id := funext List.append_nil
  rw [same, List.modify_id]

theorem modify_append_append (list : List Bytes) (index : Nat) (first second : Bytes) :
    (list.modify index (· ++ first)).modify index (· ++ second) =
      list.modify index (· ++ (first ++ second)) := by
  have same : (fun bytes : Bytes => bytes ++ second) ∘ (fun bytes : Bytes => bytes ++ first) =
      fun bytes => bytes ++ (first ++ second) :=
    funext fun bytes => List.append_assoc bytes first second
  rw [List.modify_modify_eq, same]

theorem writeFile_appends (path : Nat) : Appends (Received.writeFile path) where
  nil received := by rw [Received.writeFile, modify_append_nil]
  append first second received := by
    rw [Received.writeFile, Received.writeFile, Received.writeFile, modify_append_append]

theorem extendValue_appends (index : Nat) : Appends (Received.extendValue index) where
  nil received := by rw [Received.extendValue, modify_append_nil]
  append first second received := by
    rw [Received.extendValue, Received.extendValue, Received.extendValue, modify_append_append]

theorem extendValue_length {index : Nat} {received : Received}
    (inside : index < received.values.length) (chunk : Bytes) :
    ((received.extendValue index chunk).values.getD index []).length =
      (received.values.getD index []).length + chunk.length := by
  have inside' : index < (received.values.modify index (· ++ chunk)).length := by
    rw [List.length_modify]
    exact inside
  rw [Received.extendValue, List.getD_eq_getElem _ _ inside', List.getD_eq_getElem _ _ inside,
    List.getElem_modify_eq, List.length_append]

theorem receiveText_cons {index : Nat} {breaks : Option String} {chunk : Bytes}
    {chunks : List Bytes} {received : Received} :
    (receiveText config index breaks totalBytes (chunk :: chunks)).run received =
      match checkChunk config config.maxFieldBytes "multipart field exceeds the configured limit"
        (received.values.getD index []).length totalBytes chunk with
      | .ok next => (receiveText config index breaks next.2 chunks).run
          (received.extendValue index chunk)
      | .error error => .error error received := by
  have got : (get : Extraction Received).run received = .ok received received := rfl
  rw [receiveText, run_bind_ok _ got]
  dsimp only
  cases checkChunk config config.maxFieldBytes "multipart field exceeds the configured limit"
    (received.values.getD index []).length totalBytes chunk with
  | error error => rfl
  | ok next => rfl

/-- What a text field is checked by is what a file counts. -/
theorem receiveText_run {index : Nat} {breaks : Option String} {chunks : List Bytes}
    {received : Received} (inside : index < received.values.length) :
    (receiveText config index breaks totalBytes chunks).run received =
      (Prod.snd <$> receiveChunks config config.maxFieldBytes
        "multipart field exceeds the configured limit" (Received.extendValue index) breaks
        (received.values.getD index []).length totalBytes chunks).run received := by
  induction chunks generalizing totalBytes received with
  | nil =>
      cases breaks with
      | none => rfl
      | some error => rfl
  | cons chunk chunks ih =>
      have inside' : index < (received.extendValue index chunk).values.length := by
        rw [Received.extendValue, List.length_modify]
        exact inside
      rw [receiveText_cons, EStateM.run_map]
      by_cases fits : (received.values.getD index []).length + chunk.length ≤ config.maxFieldBytes ∧
          totalBytes + chunk.length ≤ config.maxTotalBytes
      · have checked := checkChunk_fits "multipart field exceeds the configured limit"
          config.maxFieldBytes_valid fits.1 fits.2
        rw [receiveChunks_cons checked, checked]
        dsimp only
        rw [ih inside', extendValue_length inside, EStateM.run_map]
      · obtain ⟨reason, refused⟩ := checkChunk_exceeds
          "multipart field exceeds the configured limit" config.maxFieldBytes_valid fits
        rw [receiveChunks_refused refused, refused]
        rfl

end Chunks

/-! ## Parts -/

section Parts

variable {config : MultipartConfig} {form : MultipartForm} {received : Received}
  {parts : List Sent} {name fileName : String} {contentType : Option String} {chunks : List Bytes}
  {contents : Bytes}

/-- The form of the parts, and all that was taken in for it. -/
structure Holds (config : MultipartConfig) (parts : List Sent) (form : MultipartForm)
    (received : Received) : Prop where
  formOf : FormOf parts form received
  within : Within config received
  size : received.size = totalSize parts
  paths : ∀ file ∈ form.files, file.path < received.files.length

theorem modify_concat (list : List Bytes) (bytes : Bytes) (change : Bytes → Bytes) :
    (list ++ [bytes]).modify list.length change = list ++ [change bytes] := by
  induction list with
  | nil => rfl
  | cons first list ih =>
      rw [List.cons_append, List.length_cons, List.modify_succ_cons, ih, List.cons_append]

theorem writeFile_addFile (received : Received) (contents : Bytes) :
    (received.addFile []).writeFile received.files.length contents = received.addFile contents := by
  rw [Received.writeFile, Received.addFile, modify_concat, List.nil_append, Received.addFile]

theorem extendValue_addValue (received : Received) (value : Bytes) :
    (received.addValue []).extendValue received.values.length value = received.addValue value := by
  rw [Received.extendValue, Received.addValue, modify_concat, List.nil_append, Received.addValue]

theorem addFile_size (received : Received) (contents : Bytes) :
    (received.addFile contents).size = received.size + contents.length := by
  simp only [Received.size, Received.addFile, List.map_append, List.sum_append, List.map_singleton,
    List.sum_singleton]
  omega

theorem addValue_size (received : Received) (value : Bytes) :
    (received.addValue value).size = received.size + value.length := by
  simp only [Received.size, Received.addValue, List.map_append, List.sum_append,
    List.map_singleton, List.sum_singleton]
  omega

theorem Within.addFile (within : Within config received)
    (file : contents.length ≤ config.maxFileBytes)
    (total : received.size + contents.length ≤ config.maxTotalBytes) :
    Within config (received.addFile contents) where
  files := List.forall_mem_append.mpr ⟨within.files, List.forall_mem_singleton.mpr file⟩
  values := within.values
  total := by
    rw [addFile_size]
    exact total

theorem Within.addValue {value : Bytes} (within : Within config received)
    (field : value.length ≤ config.maxFieldBytes)
    (total : received.size + value.length ≤ config.maxTotalBytes) :
    Within config (received.addValue value) where
  files := within.files
  values := List.forall_mem_append.mpr ⟨within.values, List.forall_mem_singleton.mpr field⟩
  total := by
    rw [addValue_size]
    exact total

theorem totalSize_append (parts : List Sent) (sent : Sent) :
    totalSize (parts ++ [sent]) = totalSize parts + sent.bytes.length := by
  rw [totalSize, List.map_append, List.sum_append, List.map_singleton, List.sum_singleton]
  rfl

/-- What an earlier path leads to is not changed by another file. -/
theorem upload_addFile {file : UploadedFile} (inside : file.path < received.files.length)
    (contents : Bytes) : file.upload (received.addFile contents) = file.upload received := by
  rw [UploadedFile.upload, Received.addFile, List.getElem?_append_left inside]
  rfl

/-- A turn with a file. -/
theorem receivePart_file {breaks : Option String} :
    (receivePart config form ⟨some name, some fileName, contentType, chunks, breaks⟩).run received =
      match (receiveFile config received.files.length breaks form.totalBytes chunks).run
        (received.addFile []) with
      | .ok (fileBytes, totalBytes) later => .ok { form with
          files := form.files ++
            [⟨name, fileName, contentType, fileBytes, received.files.length⟩],
          totalBytes } later
      | .error error later => .error error later := by
  have named : (orFail (.ok name)).run received = .ok name received := rfl
  have got : (get : Extraction Received).run received = .ok received received := rfl
  have added : (modify (Received.addFile []) : Extraction PUnit).run received =
      .ok ⟨⟩ (received.addFile []) := rfl
  rw [receivePart, run_bind_ok _ named]
  dsimp only
  rw [run_bind_ok _ got, run_bind_ok _ added, EStateM.run_bind]
  cases (receiveFile config received.files.length breaks form.totalBytes chunks).run
    (received.addFile []) with
  | ok next later => rfl
  | error error later => rfl

/-- A turn with a text field. -/
theorem receivePart_text {breaks : Option String} :
    (receivePart config form ⟨some name, none, contentType, chunks, breaks⟩).run received =
      match (receiveText config received.values.length breaks form.totalBytes chunks).run
        (received.addValue []) with
      | .ok totalBytes later =>
          match textOf (later.values.getD received.values.length []) with
          | .ok value => .ok { form with
              fields := form.fields.insert name (form.fields.getD name [] ++ [value]),
              totalBytes } later
          | .error error => .error error later
      | .error error later => .error error later := by
  have named : (orFail (.ok name)).run received = .ok name received := rfl
  have got (received : Received) : (get : Extraction Received).run received =
      .ok received received := rfl
  have added : (modify (Received.addValue []) : Extraction PUnit).run received =
      .ok ⟨⟩ (received.addValue []) := rfl
  rw [receivePart, run_bind_ok _ named]
  dsimp only
  rw [run_bind_ok _ (got received), run_bind_ok _ added, EStateM.run_bind]
  cases (receiveText config received.values.length breaks form.totalBytes chunks).run
    (received.addValue []) with
  | error error later => rfl
  | ok totalBytes later =>
      dsimp only
      rw [run_bind_ok _ (got later)]
      cases textOf (later.values.getD received.values.length []) with
      | error error => rfl
      | ok value => rfl

/-- A text field begins with no bytes held. -/
theorem receiveText_addValue (totalBytes : Nat) :
    (receiveText config received.values.length none totalBytes chunks).run (received.addValue []) =
      (Prod.snd <$> receiveChunks config config.maxFieldBytes
        "multipart field exceeds the configured limit"
        (Received.extendValue received.values.length) none 0 totalBytes chunks).run
        (received.addValue []) := by
  have inside : received.values.length < (received.addValue []).values.length := by
    rw [Received.addValue, List.length_append]
    exact Nat.lt_succ_self _
  have held : (received.addValue []).values.getD received.values.length [] = [] := by
    rw [Received.addValue, List.getD_eq_getElem?_getD, List.getElem?_concat_length]
    rfl
  rw [receiveText_run inside, held]
  rfl

theorem textOf_utf8 (value : String) : textOf (utf8 value) = .ok value := by
  rw [textOf, fromUTF8?_eq_some.mpr rfl]

variable (form name) in
theorem textValues_insert (value other : String) :
    (MultipartForm.textValues { form with
        fields := form.fields.insert name (form.fields.getD name [] ++ [value]) } other) =
      form.textValues other ++ (if name = other then some value else none).toList := by
  rw [MultipartForm.textValues, MultipartForm.textValues, ExtHashMap.getD_insert]
  by_cases same : name = other
  · subst same
    simp
  · simp [same]

theorem FormOf.addFile (formOf : FormOf parts form received)
    (paths : ∀ file ∈ form.files, file.path < received.files.length) :
    FormOf (parts ++ [⟨name, contentType, .file fileName contents⟩])
      { form with
        files := form.files ++
          [⟨name, fileName, contentType, contents.length, received.files.length⟩],
        totalBytes := form.totalBytes + contents.length }
      (received.addFile contents) where
  total := by
    rw [totalSize_append, ← formOf.total]
    rfl
  texts other := by
    rw [List.filterMap_append]
    exact (formOf.texts other).trans (List.append_nil _).symm
  files := by
    have kept : form.files.map (UploadedFile.upload (received.addFile contents)) =
        form.files.map (UploadedFile.upload received) :=
      List.map_congr_left fun file member => upload_addFile (paths file member) contents
    have stored : (received.addFile contents).files[received.files.length]? = some contents :=
      List.getElem?_concat_length
    rw [List.map_append, List.filterMap_append, kept, formOf.files, List.map_singleton,
      UploadedFile.upload, stored]
    rfl

theorem FormOf.addValue {value : String} (formOf : FormOf parts form received) :
    FormOf (parts ++ [⟨name, contentType, .text value⟩])
      { form with
        fields := form.fields.insert name (form.fields.getD name [] ++ [value]),
        totalBytes := form.totalBytes + (utf8 value).length }
      (received.addValue (utf8 value)) where
  total := by
    rw [totalSize_append, ← formOf.total]
    rfl
  texts other := by
    have inserted := textValues_insert form name value other
    rw [List.filterMap_append, ← formOf.texts other]
    refine inserted.trans (congrArg (form.textValues other ++ ·) ?_)
    by_cases same : name = other
    · have found : Sent.value? other ⟨name, contentType, .text value⟩ = some value := if_pos same
      rw [if_pos same, List.filterMap_cons_some found]
      rfl
    · have absent : Sent.value? other ⟨name, contentType, .text value⟩ = none := if_neg same
      rw [if_neg same, List.filterMap_cons_none absent]
      rfl
  files := by
    rw [List.filterMap_append, ← formOf.files]
    exact (List.append_nil _).symm

/-- A part within the limits is added to the form. -/
theorem receivePart_fits {delivered : Delivered} (holds : Holds config parts form received)
    (part : delivered.sent.bytes.length ≤ delivered.sent.limit config)
    (total : totalSize parts + delivered.sent.bytes.length ≤ config.maxTotalBytes) :
    ∃ form' received', (receivePart config form delivered.part).run received =
        .ok form' received' ∧ Holds config (parts ++ [delivered.sent]) form' received' := by
  obtain ⟨⟨name, contentType, body⟩, chunks, whole⟩ := delivered
  cases body with
  | file fileName contents =>
      have contents_eq : chunks.flatten = contents := whole
      subst contents_eq
      have counted : form.totalBytes + chunks.flatten.length ≤ config.maxTotalBytes := by
        rw [holds.formOf.total]
        exact total
      have file : 0 + chunks.flatten.length ≤ config.maxFileBytes := by
        rw [Nat.zero_add]
        exact part
      have taken := receiveChunks_fits "multipart file exceeds the configured limit"
        (writeFile_appends received.files.length) config.maxFileBytes_valid
        (received.addFile []) file counted
      rw [← receiveFile, writeFile_addFile, Nat.zero_add] at taken
      refine ⟨_, _, receivePart_file.trans (by rw [taken]), ?_⟩
      refine ⟨holds.formOf.addFile holds.paths, holds.within.addFile part ?_, ?_, ?_⟩
      · rw [holds.size]
        exact total
      · rw [addFile_size, holds.size, totalSize_append]
        rfl
      · have longer : (received.addFile chunks.flatten).files.length =
            received.files.length + 1 := by
          rw [Received.addFile, List.length_append, List.length_singleton]
        rw [longer]
        refine List.forall_mem_append.mpr ⟨?_, List.forall_mem_singleton.mpr (Nat.lt_succ_self _)⟩
        intro file member
        exact (holds.paths file member).trans (Nat.lt_succ_self _)
  | text value =>
      have value_eq : chunks.flatten = utf8 value := whole
      have counted : form.totalBytes + chunks.flatten.length ≤ config.maxTotalBytes := by
        rw [holds.formOf.total, value_eq]
        exact total
      have held : (received.addValue (utf8 value)).values.getD received.values.length [] =
          utf8 value := by
        rw [Received.addValue, List.getD_eq_getElem?_getD, List.getElem?_concat_length]
        rfl
      have field : 0 + chunks.flatten.length ≤ config.maxFieldBytes := by
        rw [Nat.zero_add, value_eq]
        exact part
      have taken := receiveChunks_fits "multipart field exceeds the configured limit"
        (extendValue_appends received.values.length) config.maxFieldBytes_valid
        (received.addValue []) field counted
      rw [extendValue_addValue, Nat.zero_add, value_eq] at taken
      have read : (receiveText config received.values.length none form.totalBytes chunks).run
          (received.addValue []) =
            .ok (form.totalBytes + (utf8 value).length) (received.addValue (utf8 value)) := by
        rw [receiveText_addValue, EStateM.run_map, taken]
        rfl
      refine ⟨_, _, receivePart_text.trans (by rw [read]; dsimp only; rw [held, textOf_utf8]), ?_⟩
      refine ⟨holds.formOf.addValue, holds.within.addValue part ?_, ?_, holds.paths⟩
      · rw [holds.size]
        exact total
      · rw [addValue_size, holds.size, totalSize_append]
        rfl

/-- A part beyond a limit ends the extraction, with nothing beyond it taken in. -/
theorem receivePart_exceeds {delivered : Delivered} (holds : Holds config parts form received)
    (exceeds : ¬(delivered.sent.bytes.length ≤ delivered.sent.limit config ∧
      totalSize parts + delivered.sent.bytes.length ≤ config.maxTotalBytes)) :
    ∃ reason received', (receivePart config form delivered.part).run received =
        .error (.payloadTooLarge reason) received' ∧ Within config received' := by
  obtain ⟨⟨name, contentType, body⟩, chunks, whole⟩ := delivered
  have total := holds.formOf.total
  have within : totalSize parts ≤ config.maxTotalBytes := holds.size ▸ holds.within.total
  cases body with
  | file fileName contents =>
      have contents_eq : chunks.flatten = contents := whole
      subst contents_eq
      have beyond : ¬(0 + chunks.flatten.length ≤ config.maxFileBytes ∧
          form.totalBytes + chunks.flatten.length ≤ config.maxTotalBytes) := by
        rw [Nat.zero_add, total]
        exact exceeds
      obtain ⟨reason, taken, ran, file, sum⟩ :=
        receiveChunks_exceeds "multipart file exceeds the configured limit"
          (writeFile_appends received.files.length) config.maxFileBytes_valid
          (received.addFile []) (Nat.zero_le _) (total ▸ within) beyond
      rw [← receiveFile, writeFile_addFile] at ran
      refine ⟨reason, _, receivePart_file.trans (by rw [ran]), holds.within.addFile ?_ ?_⟩
      · rw [Nat.zero_add] at file
        exact file
      · rw [holds.size, ← total]
        exact sum
  | text value =>
      have value_eq : chunks.flatten = utf8 value := whole
      have beyond : ¬(0 + chunks.flatten.length ≤ config.maxFieldBytes ∧
          form.totalBytes + chunks.flatten.length ≤ config.maxTotalBytes) := by
        rw [Nat.zero_add, total, value_eq]
        exact exceeds
      obtain ⟨reason, taken, ran, field, sum⟩ :=
        receiveChunks_exceeds "multipart field exceeds the configured limit"
          (extendValue_appends received.values.length) config.maxFieldBytes_valid
          (received.addValue []) (Nat.zero_le _) (total ▸ within) beyond
      have refused : (receiveText config received.values.length none form.totalBytes chunks).run
          (received.addValue []) = .error (.payloadTooLarge reason) (received.addValue taken) := by
        rw [receiveText_addValue, EStateM.run_map, ran, extendValue_addValue]
        rfl
      refine ⟨reason, _, receivePart_text.trans (by rw [refused]), holds.within.addValue ?_ ?_⟩
      · rw [Nat.zero_add] at field
        exact field
      · rw [holds.size, ← total]
        exact sum

end Parts

/-! ## Forms -/

section Forms

variable {config : MultipartConfig} {form : MultipartForm} {received : Received}
  {before : List Sent}

theorem fits_append {sent : Sent} {later : List Sent}
    (fits : Fits config (before ++ sent :: later)) :
    sent.bytes.length ≤ sent.limit config ∧
      totalSize before + sent.bytes.length ≤ config.maxTotalBytes := by
  refine ⟨fits.each sent (List.mem_append_right _ List.mem_cons_self), ?_⟩
  have total := fits.total
  rw [totalSize, List.map_append, List.sum_append, List.map_cons, List.sum_cons] at total
  rw [totalSize]
  omega

theorem Fits.concat {sent : Sent} (fits : Fits config before)
    (part : sent.bytes.length ≤ sent.limit config)
    (total : totalSize before + sent.bytes.length ≤ config.maxTotalBytes) :
    Fits config (before ++ [sent]) where
  each := List.forall_mem_append.mpr ⟨fits.each, List.forall_mem_singleton.mpr part⟩
  total := by
    rw [totalSize_append]
    exact total

/-- Parts within the limits become a form, and others end with the error. -/
theorem receiveParts_run (delivered : List Delivered) (holds : Holds config before form received)
    (fits : Fits config before) :
    (Fits config (before ++ delivered.map Delivered.sent) → ∃ form' received',
      (receiveParts config none form (delivered.map Delivered.part)).run received =
        .ok form' received' ∧
      Holds config (before ++ delivered.map Delivered.sent) form' received') ∧
    (¬Fits config (before ++ delivered.map Delivered.sent) → ∃ reason received',
      (receiveParts config none form (delivered.map Delivered.part)).run received =
        .error (.payloadTooLarge reason) received' ∧ Within config received') := by
  induction delivered generalizing before form received with
  | nil =>
      rw [List.map_nil, List.append_nil]
      exact ⟨fun _ => ⟨form, received, rfl, holds⟩, fun exceeds => (exceeds fits).elim⟩
  | cons first delivered ih =>
      have behind : before ++ (first :: delivered).map Delivered.sent =
          before ++ [first.sent] ++ delivered.map Delivered.sent := by
        rw [List.map_cons, List.append_assoc, List.singleton_append]
      by_cases admitted : first.sent.bytes.length ≤ first.sent.limit config ∧
          totalSize before + first.sent.bytes.length ≤ config.maxTotalBytes
      · obtain ⟨form', received', ran, holds'⟩ :=
          receivePart_fits holds admitted.1 admitted.2
        rw [behind, List.map_cons, receiveParts, run_bind_ok _ ran]
        exact ih holds' (fits.concat admitted.1 admitted.2)
      · obtain ⟨reason, received', ran, within⟩ := receivePart_exceeds holds admitted
        refine ⟨fun all => (admitted (fits_append all)).elim, fun _ => ?_⟩
        refine ⟨reason, received', ?_, within⟩
        rw [List.map_cons, receiveParts, run_bind_error _ ran]

theorem holds_nil (config : MultipartConfig) : Holds config [] ⟨∅, [], 0⟩ ⟨[], []⟩ where
  formOf := ⟨rfl, fun _ => ExtHashMap.getD_empty, rfl⟩
  within := ⟨List.forall_mem_nil _, List.forall_mem_nil _, Nat.zero_le _⟩
  size := rfl
  paths := List.forall_mem_nil _

/-- The extraction of a form succeeds exactly if its parts are within the limits, in whatever
chunks they come, with what was sent; otherwise it takes in nothing beyond a limit. -/
theorem multipart_limits_exact (config : MultipartConfig) (parts : List Delivered) :
    ((∃ form received, fromRequest config (parts.map Delivered.part) none = .ok form received) ↔
      Fits config (parts.map Delivered.sent)) ∧
    (∀ form received, fromRequest config (parts.map Delivered.part) none = .ok form received →
      FormOf (parts.map Delivered.sent) form received) ∧
    (∀ error received,
      fromRequest config (parts.map Delivered.part) none = .error error received →
        error.code = "payload_too_large" ∧ Within config received) ∧
    ∀ current additional limit message, limit < usizeCount →
      checkedPayloadSize current additional limit message =
        if current + additional ≤ limit then .ok (current + additional)
        else .error (.payloadTooLarge message) := by
  have runs := receiveParts_run parts (holds_nil config) ⟨List.forall_mem_nil _, Nat.zero_le _⟩
  rw [List.nil_append] at runs
  rw [fromRequest]
  refine ⟨?_, ?_, ?_, fun current additional limit message word =>
    checkedPayloadSize_eq word current additional message⟩
  · refine ⟨?_, ?_⟩
    · intro succeeds
      obtain ⟨form, received, ran⟩ := succeeds
      by_contra exceeds
      obtain ⟨reason, received', failed, _⟩ := runs.2 exceeds
      cases ran.symm.trans failed
    · intro fits
      obtain ⟨form, received, ran, _⟩ := runs.1 fits
      exact ⟨form, received, ran⟩
  · intro form received ran
    by_cases fits : Fits config (parts.map Delivered.sent)
    · obtain ⟨form', received', ran', holds⟩ := runs.1 fits
      cases ran.symm.trans ran'
      exact holds.formOf
    · obtain ⟨reason, received', failed, _⟩ := runs.2 fits
      cases ran.symm.trans failed
  · intro error received failed
    by_cases fits : Fits config (parts.map Delivered.sent)
    · obtain ⟨form', received', ran, _⟩ := runs.1 fits
      cases failed.symm.trans ran
    · obtain ⟨reason, received', failed', within⟩ := runs.2 fits
      cases failed.symm.trans failed'
      exact ⟨rfl, within⟩

end Forms

end RustZero.Multipart
