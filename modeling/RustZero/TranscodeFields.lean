import Mathlib
import RustZero.TranscodeRequest

/-!
# Fields that a path binds

`gateway/src/transcode.rs`, `request_message`: what the message has in the fields that the path
has captured.

A key of a JSON object stands for a field by either of its names, and an object may have both.
`serde_json` keeps and writes the members of an object in the order of their keys, so that the
greater of the two is read later and decides, unless it is null.

* `Protobuf` is what `prost_reflect` makes of such an object; `Lawful` is what its
  documentation and the JSON mapping of messages promise of it.
* `Settles`: which of the inputs decides a field, and that it says what was captured.
-/

namespace RustZero.Transcode

open Std Lib Hash Auth

/-! ## Reading messages -/

/-- What the descriptors say of members of JSON objects. -/
structure Schema where
  /-- The field that a key stands for in an object of the message. -/
  resolve : MessageDescriptor → String → Option FieldDescriptor
  /-- The message of a single field.  Timestamps, wrappers and other messages with a JSON form
  of their own have no fields to be named and are none. -/
  message : FieldDescriptor → Option MessageDescriptor
  /-- Null is a value of the field. -/
  takesNull : FieldDescriptor → Bool

/-- Messages and other values of protobuf. -/
structure Protobuf (δ : Type) extends Schema where
  deserialize : MessageDescriptor → Value → Except String δ
  decode : FieldDescriptor → Value → Except String δ
  get : δ → FieldDescriptor → δ
  /-- What a field has that was not set. -/
  absent : FieldDescriptor → δ

namespace Schema

variable (schema : Schema)

/-- The keys of a field, the one that is read later first. -/
def spellings (input : MessageDescriptor) (field : FieldDescriptor) : List String :=
  (if field.jsonName < field.name then [field.name, field.jsonName]
    else [field.jsonName, field.name]).filter fun key => schema.resolve input key = some field

/-- A member that sets its field. -/
def sets (field : FieldDescriptor) : Value → Bool
  | .null => schema.takesNull field
  | _ => true

/-- The member that decides a field. -/
def memberOf (input : MessageDescriptor) (field : FieldDescriptor)
    (entries : List (String × Value)) : Option Value :=
  ((schema.spellings input field).find? fun key =>
    (entries.lookup key).any (schema.sets field)).bind fun key => entries.lookup key

end Schema

namespace Protobuf

variable {δ : Type} (protobuf : Protobuf δ)

structure Lawful : Prop where
  member : ∀ input field entries message value,
    protobuf.deserialize input (.object entries) = .ok message → field ∈ input.fields →
      protobuf.memberOf input field entries = some value →
        protobuf.decode field value = .ok (protobuf.get message field)
  unset : ∀ input field entries message,
    protobuf.deserialize input (.object entries) = .ok message → field ∈ input.fields →
      protobuf.memberOf input field entries = none →
        protobuf.get message field = protobuf.absent field
  nested : ∀ field inner entries value, protobuf.message field = some inner →
    protobuf.decode field (.object entries) = .ok value →
      protobuf.deserialize inner (.object entries) = .ok value
  absent : ∀ field inner within, protobuf.message field = some inner → within ∈ inner.fields →
    protobuf.get (protobuf.absent field) within = protobuf.absent within
  /-- What an object stands for, nothing else does. -/
  object : ∀ field entries value other, protobuf.decode field (.object entries) = .ok value →
    jsonMaps.IsLeaf other → protobuf.decode field other ≠ .ok value

/-- The field at a path of fields. -/
def fieldAt (message : δ) (field : FieldDescriptor) (within : List FieldDescriptor) : δ :=
  within.foldl protobuf.get (protobuf.get message field)

end Protobuf

/-! ## Which input decides -/

/-- The last field of a path of fields. -/
def target (field : FieldDescriptor) (within : List FieldDescriptor) : FieldDescriptor :=
  within.getLastD field

/-- A dotted name leads through the fields of messages to a field. -/
inductive Names (schema : Schema) :
    MessageDescriptor → List String → FieldDescriptor → List FieldDescriptor → Prop
  | last {input : MessageDescriptor} {name : String} {field : FieldDescriptor}
      (found : findField input name = some field) : Names schema input [name] field []
  | nested {input inner : MessageDescriptor} {name : String} {names : List String}
      {field next : FieldDescriptor} {within : List FieldDescriptor}
      (found : findField input name = some field) (message : schema.message field = some inner)
      (rest : Names schema inner names next within) :
      Names schema input (name :: names) field (next :: within)

/-- What is left at a path sets the field. -/
def Stands (schema : Schema) (field : FieldDescriptor) : NestedMap.Left Value → Bool
  | .absent => false
  | .given value => schema.sets field value
  | .built => true

/-- The key that decides a field of the object at a path. -/
def decidingKey (schema : Schema) (left : List String → NestedMap.Left Value)
    (input : MessageDescriptor) (path : List String) (field : FieldDescriptor) : Option String :=
  (schema.spellings input field).find? fun key => Stands schema field (left (path ++ [key]))

/-- What decides a field, by what the inputs leave at the paths of its keys, reads as a captured
value. -/
inductive Settles {δ : Type} (protobuf : Protobuf δ) (left : List String → NestedMap.Left Value)
    (captured : Value) :
    MessageDescriptor → List String → FieldDescriptor → List FieldDescriptor → Prop
  /-- No input sets it, and it has the captured value all the same. -/
  | unset {input : MessageDescriptor} {path : List String} {field : FieldDescriptor}
      {within : List FieldDescriptor}
      (none : decidingKey protobuf.toSchema left input path field = none)
      (same : protobuf.decode (target field within) captured =
        .ok (protobuf.absent (target field within))) :
      Settles protobuf left captured input path field within
  /-- One input gives it as a whole. -/
  | given {input : MessageDescriptor} {path : List String} {field : FieldDescriptor}
      {within : List FieldDescriptor} (key : String) (value : Value) (read : δ)
      (decides : decidingKey protobuf.toSchema left input path field = some key)
      (here : left (path ++ [key]) = .given value)
      (decoded : protobuf.decode field value = .ok read)
      (same : protobuf.decode (target field within) captured =
        .ok (within.foldl protobuf.get read)) :
      Settles protobuf left captured input path field within
  /-- It is a message that the inputs make together. -/
  | built {input inner : MessageDescriptor} {path : List String} {field next : FieldDescriptor}
      {within : List FieldDescriptor} (key : String)
      (decides : decidingKey protobuf.toSchema left input path field = some key)
      (here : left (path ++ [key]) = .built)
      (message : protobuf.message field = some inner)
      (rest : Settles protobuf left captured inner (path ++ [key]) next within) :
      Settles protobuf left captured input path field (next :: within)

/-- A field that the path binds, and the value that it binds it to. -/
structure Bound (schema : Schema) (input : MessageDescriptor) (captures : Captures)
    (field : FieldDescriptor) (within : List FieldDescriptor) (value : Value) : Prop where
  captured : ∃ name raw, captures[name]? = some raw ∧
    Names schema input (split '.' name) field within ∧ typedValue input name raw = .ok value

/-- Each field that the path binds has the value that was captured. -/
def KeepsCaptures {δ : Type} (protobuf : Protobuf δ) (input : MessageDescriptor)
    (captures : Captures) (message : δ) : Prop :=
  ∀ field within value, Bound protobuf.toSchema input captures field within value →
    protobuf.decode (target field within) value = .ok (protobuf.fieldAt message field within)

/-- For each field that the path binds, what decides it reads as the value captured. -/
def CapturesDecide {δ : Type} (protobuf : Protobuf δ) (input : MessageDescriptor)
    (captures : Captures) (query : String) (start : Value) : Prop :=
  ∀ field within value, Bound protobuf.toSchema input captures field within value →
    Settles protobuf (jsonMaps.leftAt (reached (attempts input captures query)) start) value
      input [] field within

section Fields

variable {δ : Type} {protobuf : Protobuf δ} {input inner : MessageDescriptor}
  {names path : List String} {field next : FieldDescriptor} {within : List FieldDescriptor}
  {entries : List (String × Value)} {object captured : Value} {message : δ}
  {left : List String → NestedMap.Left Value}

theorem target_cons (field next : FieldDescriptor) (within : List FieldDescriptor) :
    target field (next :: within) = target next within := by
  cases within <;> rfl

theorem mem_of_findField {name : String} (found : findField input name = some field) :
    field ∈ input.fields := by
  rcases Option.or_eq_some_iff.mp found with byName | ⟨_, byJson⟩
  · exact List.mem_of_find?_eq_some byName
  · exact List.mem_of_find?_eq_some byJson

theorem Names.field_mem {schema : Schema} (names : Names schema input path field within) :
    field ∈ input.fields := by
  cases names with
  | last found => exact mem_of_findField found
  | nested found _ _ => exact mem_of_findField found

/-- The fields of a message that is not there are not there. -/
theorem foldl_get_absent (lawful : protobuf.Lawful)
    (leads : Names protobuf.toSchema input names field within) :
    within.foldl protobuf.get (protobuf.absent field) =
      protobuf.absent (target field within) := by
  induction leads with
  | last found => rfl
  | nested found message rest ih =>
      rw [List.foldl_cons, lawful.absent _ _ _ message rest.field_mem, ih, target_cons]

theorem exists_object {value : Value} (isMap : ¬jsonMaps.IsLeaf value) :
    ∃ entries, value = .object entries := by
  cases value with
  | object members => exact ⟨members, rfl⟩
  | null => exact absurd rfl isMap
  | bool _ => exact absurd rfl isMap
  | number _ => exact absurd rfl isMap
  | string _ => exact absurd rfl isMap
  | array _ => exact absurd rfl isMap

theorem lookup_of_valueAt (here : jsonMaps.valueAt path object = some (.object entries))
    (key : String) : entries.lookup key = jsonMaps.valueAt (path ++ [key]) object := by
  rw [NestedMap.valueAt_append, here, Option.bind_some]
  change _ = (entries.lookup key).bind some
  cases entries.lookup key <;> rfl

theorem any_eq_stands {schema : Schema} {found : Option Value} {here : NestedMap.Left Value}
    (fit : here.Fits jsonMaps found) (field : FieldDescriptor) :
    found.any (schema.sets field) = Stands schema field here := by
  cases here with
  | absent =>
      rw [fit]
      rfl
  | given value =>
      rw [fit]
      rfl
  | built =>
      obtain ⟨value, same, isMap⟩ := fit
      obtain ⟨entries, shape⟩ := exists_object isMap
      rw [same, shape]
      rfl

/-- The member that decides is at the key that decides. -/
theorem memberOf_eq {schema : Schema}
    (here : jsonMaps.valueAt path object = some (.object entries))
    (fits : ∀ path, (left path).Fits jsonMaps (jsonMaps.valueAt path object))
    (input : MessageDescriptor) (field : FieldDescriptor) :
    schema.memberOf input field entries =
      (decidingKey schema left input path field).bind fun key =>
        jsonMaps.valueAt (path ++ [key]) object := by
  have each : ∀ key, (jsonMaps.valueAt (path ++ [key]) object).any (schema.sets field) =
      Stands schema field (left (path ++ [key])) := fun key =>
    any_eq_stands (fits (path ++ [key])) field
  unfold Schema.memberOf decidingKey
  simp only [lookup_of_valueAt here, each]

theorem startObject_object {parse : List UInt8 → Except String Value} {binding : HttpBinding}
    {body : List UInt8} {start : Value} (begun : startObject parse binding body = .ok start) :
    ∃ entries, start = .object entries := by
  obtain ⟨value, _, rest⟩ := bind_eq_ok begun
  obtain ⟨object, _, rest⟩ := bind_eq_ok rest
  obtain ⟨_, checked, same⟩ := bind_eq_ok rest
  cases same
  have some := ensure_eq_ok.mp checked
  refine exists_object ?_
  intro leaf
  rw [show jsonMembers start = none from leaf] at some
  cases some

theorem mapError_eq_ok {ε ε' α : Type} {result : Except ε α} {wrap : ε → ε'} {value : α}
    (ok : result.mapError wrap = .ok value) : result = .ok value := by
  cases result with
  | error error => cases ok
  | ok other =>
      cases ok
      rfl

/-- What a field of a message has, by what decides it. -/
theorem get_cases (lawful : protobuf.Lawful)
    (fits : ∀ path, (left path).Fits jsonMaps (jsonMaps.valueAt path object))
    (here : jsonMaps.valueAt path object = some (.object entries))
    (read : protobuf.deserialize input (.object entries) = .ok message)
    (known : field ∈ input.fields) :
    (decidingKey protobuf.toSchema left input path field = none ∧
      protobuf.get message field = protobuf.absent field) ∨
    (∃ key value, decidingKey protobuf.toSchema left input path field = some key ∧
      left (path ++ [key]) = .given value ∧
      protobuf.decode field value = .ok (protobuf.get message field)) ∨
    (∃ key members, decidingKey protobuf.toSchema left input path field = some key ∧
      left (path ++ [key]) = .built ∧
      jsonMaps.valueAt (path ++ [key]) object = some (.object members) ∧
      protobuf.decode field (.object members) = .ok (protobuf.get message field)) := by
  have decided : protobuf.memberOf input field entries = _ := memberOf_eq here fits input field
  cases deciding : decidingKey protobuf.toSchema left input path field with
  | none =>
      rw [deciding] at decided
      exact .inl ⟨rfl, lawful.unset _ _ _ _ read known decided⟩
  | some key =>
      rw [deciding, Option.bind_some] at decided
      have fit := fits (path ++ [key])
      have stands := List.find?_some deciding
      cases held : left (path ++ [key]) with
      | absent =>
          rw [held] at stands
          cases stands
      | given value =>
          rw [held] at fit
          have member := lawful.member _ _ _ _ value read known (decided.trans fit)
          exact .inr (.inl ⟨key, value, rfl, held, member⟩)
      | built =>
          rw [held] at fit
          obtain ⟨value, found, isMap⟩ := fit
          obtain ⟨members, shape⟩ := exists_object isMap
          rw [shape] at found
          have member := lawful.member _ _ _ _ _ read known (decided.trans found)
          exact .inr (.inr ⟨key, members, rfl, held, found, member⟩)

theorem settles_iff_of_unset
    (unset : decidingKey protobuf.toSchema left input path field = none) :
    Settles protobuf left captured input path field within ↔
      protobuf.decode (target field within) captured =
        .ok (protobuf.absent (target field within)) := by
  constructor
  · intro settles
    cases settles with
    | unset _ same => exact same
    | given key _ _ decides => cases unset.symm.trans decides
    | built key decides => cases unset.symm.trans decides
  · intro same
    exact .unset unset same

theorem settles_iff_of_given {key : String} {value : Value} {read : δ}
    (decides : decidingKey protobuf.toSchema left input path field = some key)
    (here : left (path ++ [key]) = .given value)
    (decoded : protobuf.decode field value = .ok read) :
    Settles protobuf left captured input path field within ↔
      protobuf.decode (target field within) captured = .ok (within.foldl protobuf.get read) := by
  constructor
  · intro settles
    cases settles with
    | unset none _ => cases none.symm.trans decides
    | given other value' read' decides' here' decoded' same =>
        cases decides.symm.trans decides'
        cases here.symm.trans here'
        cases decoded.symm.trans decoded'
        exact same
    | built other decides' here' =>
        cases decides.symm.trans decides'
        cases here.symm.trans here'
  · intro same
    exact .given key value read decides here decoded same

theorem settles_iff_of_built {key : String}
    (decides : decidingKey protobuf.toSchema left input path field = some key)
    (here : left (path ++ [key]) = .built) :
    Settles protobuf left captured input path field within ↔
      ∃ inner next rest, within = next :: rest ∧ protobuf.message field = some inner ∧
        Settles protobuf left captured inner (path ++ [key]) next rest := by
  constructor
  · intro settles
    cases settles with
    | unset none _ => cases none.symm.trans decides
    | given other value' read' decides' here' =>
        cases decides.symm.trans decides'
        cases here.symm.trans here'
    | built other decides' here' message rest =>
        cases decides.symm.trans decides'
        exact ⟨_, _, _, rfl, message, rest⟩
  · intro held
    obtain ⟨inner, next, rest, same, message, settles⟩ := held
    subst same
    exact .built key decides here message settles

/-- A field of a message that was read from an object has the captured value exactly if what
decides it reads so. -/
theorem settles_iff (lawful : protobuf.Lawful)
    (fits : ∀ path, (left path).Fits jsonMaps (jsonMaps.valueAt path object))
    (leaf : jsonMaps.IsLeaf captured)
    (leads : Names protobuf.toSchema input names field within)
    (here : jsonMaps.valueAt path object = some (.object entries))
    (read : protobuf.deserialize input (.object entries) = .ok message) :
    Settles protobuf left captured input path field within ↔
      protobuf.decode (target field within) captured =
        .ok (protobuf.fieldAt message field within) := by
  induction leads generalizing path entries message with
  | last found =>
      rcases get_cases lawful fits here read (mem_of_findField found) with
        ⟨unset, none⟩ | ⟨key, value, decides, given, decoded⟩ |
          ⟨key, members, decides, built, _, decoded⟩
      · rw [settles_iff_of_unset unset, Protobuf.fieldAt, none]
        rfl
      · rw [settles_iff_of_given decides given decoded]
        rfl
      · -- the value that is captured is no object
        rw [settles_iff_of_built decides built]
        refine iff_of_false ?_ (lawful.object _ _ _ _ decoded leaf)
        intro held
        obtain ⟨_, _, _, same, _⟩ := held
        cases same
  | nested found shape rest ih =>
      have leads := Names.nested found shape rest
      rcases get_cases lawful fits here read (mem_of_findField found) with
        ⟨unset, none⟩ | ⟨key, value, decides, given, decoded⟩ |
          ⟨key, members, decides, built, there, decoded⟩
      · rw [settles_iff_of_unset unset, Protobuf.fieldAt, none, foldl_get_absent lawful leads]
      · rw [settles_iff_of_given decides given decoded]
        rfl
      · rw [settles_iff_of_built decides built, target_cons]
        have inside := ih there (lawful.nested _ _ _ _ shape decoded)
        constructor
        · intro held
          obtain ⟨_, _, _, same, shape', settles⟩ := held
          cases same
          cases shape.symm.trans shape'
          exact inside.mp settles
        · intro same
          exact ⟨_, _, _, rfl, shape, inside.mpr same⟩

end Fields

/-- When the fields that a path binds have the values that it captures. -/
theorem keeps_captures_iff {δ : Type} (protobuf : Protobuf δ) (lawful : protobuf.Lawful)
    (parse : List UInt8 → Except String Value) (route : Route) (captures : Captures)
    (query : String) (body : List UInt8) (message : δ)
    (ok : requestMessage parse protobuf.deserialize route captures query body = .ok message) :
    KeepsCaptures protobuf route.method.input captures message ↔
      ∃ start, startObject parse route.binding body = .ok start ∧
        CapturesDecide protobuf route.method.input captures query start := by
  obtain ⟨object, made, reading⟩ := bind_eq_ok ok
  rw [requestObject_eq] at made
  obtain ⟨start, begun, done⟩ := bind_eq_ok made
  have whole := (foldlM_insertAttempt_ok done).2
  obtain ⟨fields, started⟩ := startObject_object begun
  have leaves : ∀ insertion ∈ reached (attempts route.method.input captures query),
      jsonMaps.IsLeaf insertion.2 := fun _ member => (reached_sound member).2
  have paths : ∀ insertion ∈ reached (attempts route.method.input captures query),
      insertion.1 ≠ [] := fun _ member => (reached_sound member).1
  have isMap : ¬jsonMaps.IsLeaf start := by
    rw [started]
    exact Option.some_ne_none _
  obtain ⟨entries, shape⟩ := exists_object (NestedMap.insertAll_map paths isMap whole)
  have fits := NestedMap.valueAt_insertAll leaves whole
  have here : jsonMaps.valueAt [] object = some (.object entries) := congrArg some shape
  have read : protobuf.deserialize route.method.input (.object entries) = .ok message := by
    rw [← shape]
    exact mapError_eq_ok reading
  have each : ∀ field within value,
      Bound protobuf.toSchema route.method.input captures field within value →
        (Settles protobuf
            (jsonMaps.leftAt (reached (attempts route.method.input captures query)) start) value
            route.method.input [] field within ↔
          protobuf.decode (target field within) value =
            .ok (protobuf.fieldAt message field within)) := by
    intro field within value bound
    obtain ⟨name, raw, _, leads, typed⟩ := bound.captured
    exact settles_iff lawful fits (typedValue_leaf typed) leads here read
  constructor
  · intro keeps
    refine ⟨start, begun, ?_⟩
    intro field within value bound
    exact (each field within value bound).mpr (keeps field within value bound)
  · intro held field within value bound
    obtain ⟨other, begun', decide⟩ := held
    cases begun.symm.trans begun'
    exact (each field within value bound).mp (decide field within value bound)

/-! ## Messages of texts -/

def textSchema : Schema where
  resolve input key :=
    (input.fields.find? fun field => field.jsonName == key).or
      (input.fields.find? fun field => field.name == key)
  message _ := none
  takesNull _ := false

def isText : Value → Bool
  | .string _ => true
  | _ => false

/-- Messages whose fields are texts, kept as the objects that they are read from. -/
def textProtobuf : Protobuf (MessageDescriptor × Value) where
  toSchema := textSchema
  deserialize input
    | .object entries => do
        ensure (entries.all fun entry =>
          (textSchema.resolve input entry.1).isSome && isText entry.2) "expected texts of fields"
        .ok (input, .object entries)
    | _ => .error "expected an object"
  decode _ value := do
    ensure (isText value) "expected a text"
    .ok (⟨[]⟩, value)
  get message field :=
    (⟨[]⟩, ((jsonMembers message.2).bind (textSchema.memberOf message.1 field)).getD (.string ""))
  absent _ := (⟨[]⟩, .string "")

theorem textProtobuf_read {input : MessageDescriptor} {entries : List (String × Value)}
    {message : MessageDescriptor × Value}
    (read : textProtobuf.deserialize input (.object entries) = .ok message) :
    message = (input, .object entries) ∧ ∀ entry ∈ entries, isText entry.2 = true := by
  obtain ⟨_, checked, same⟩ := bind_eq_ok read
  cases same
  refine ⟨rfl, ?_⟩
  intro entry member
  have texts := List.all_eq_true.mp (ensure_eq_ok.mp checked) entry member
  exact (Bool.and_eq_true_iff.mp texts).2

theorem textProtobuf_get (input : MessageDescriptor) (entries : List (String × Value))
    (field : FieldDescriptor) :
    textProtobuf.get (input, .object entries) field =
      (⟨[]⟩, (textProtobuf.memberOf input field entries).getD (.string "")) :=
  rfl

theorem textProtobuf_lawful : textProtobuf.Lawful where
  member input field entries message value read _ decides := by
    obtain ⟨same, texts⟩ := textProtobuf_read read
    obtain ⟨key, _, here⟩ := Option.bind_eq_some_iff.mp decides
    obtain ⟨before, after, split, _⟩ := List.lookup_eq_some_iff.mp here
    have text : isText value = true := texts (key, value) (by rw [split]; simp)
    rw [same, textProtobuf_get, decides]
    change (do ensure (isText value) _; .ok _) = _
    rw [text]
    rfl
  unset input field entries message read _ decides := by
    rw [(textProtobuf_read read).1, textProtobuf_get, decides]
    rfl
  nested field inner entries value shape := by cases shape
  absent field inner within shape := by cases shape
  object field entries value other decoded := by cases decoded

/-- No body of the requests is read. -/
def noJson (_ : List UInt8) : Except String Value := .error "expected value"

def userCaptures : Captures := (∅ : Captures).insert "id" "7"

theorem bound_userCaptures {field : FieldDescriptor} {within : List FieldDescriptor}
    {value : Value}
    (bound : Bound textSchema userRoute.method.input userCaptures field within value) :
    field = ⟨"v1.GetUser.id", "id", "id", .other⟩ ∧ within = [] ∧ value = .string "7" := by
  obtain ⟨name, raw, held, leads, typed⟩ := bound.captured
  rw [userCaptures, ExtTreeMap.getElem?_insert] at held
  by_cases named : name = "id"
  · subst named
    simp only [compare_self, if_true, Option.some.injEq] at held
    subst held
    have parts : split '.' "id" = ["id"] := rfl
    rw [parts] at leads
    cases leads with
    | last found =>
        cases found
        cases typed
        exact ⟨rfl, rfl, rfl⟩
    | nested _ _ rest => cases rest
  · have differs : compare "id" name ≠ .eq := fun same => named (Std.compare_eq_iff_eq.mp same).symm
    simp [differs] at held

/-- A parameter that repeats what the path says. -/
theorem keeps_captures_sample :
    ∃ message, requestMessage noJson textProtobuf.deserialize userRoute userCaptures "id=8&id=7"
        [] = .ok message ∧
      KeepsCaptures textProtobuf userRoute.method.input userCaptures message := by
  refine ⟨(userRoute.method.input, .object [("id", .string "7")]), rfl, ?_⟩
  refine (keeps_captures_iff textProtobuf textProtobuf_lawful noJson userRoute userCaptures
    "id=8&id=7" [] _ rfl).mpr ⟨.object [], rfl, ?_⟩
  intro field within value bound
  obtain ⟨sameField, sameWithin, sameValue⟩ := bound_userCaptures bound
  subst sameField sameWithin sameValue
  exact .given "id" (.string "7") (⟨[]⟩, .string "7") rfl rfl rfl rfl

/-- A parameter with the name of a captured field is inserted after it. -/
theorem query_overrides_capture :
    textProtobuf.Lawful ∧ matchTemplate userRoute.binding.path "/v1/7" = some userCaptures ∧
      ∃ message, requestMessage noJson textProtobuf.deserialize userRoute userCaptures "id=8" [] =
          .ok message ∧
        ¬KeepsCaptures textProtobuf userRoute.method.input userCaptures message := by
  refine ⟨textProtobuf_lawful, rfl,
    (userRoute.method.input, .object [("id", .string "8")]), rfl, ?_⟩
  intro keeps
  have bound : Bound textSchema userRoute.method.input userCaptures
      ⟨"v1.GetUser.id", "id", "id", .other⟩ [] (.string "7") :=
    ⟨"id", "7", rfl, .last rfl, rfl⟩
  have same : (.ok (⟨[]⟩, .string "7") : Except String (MessageDescriptor × Value)) =
      .ok (⟨[]⟩, .string "8") := keeps _ _ _ bound
  exact absurd (Value.string.inj (congrArg Prod.snd (Except.ok.inj same))) (by decide)

end RustZero.Transcode
