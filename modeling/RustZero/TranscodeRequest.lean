import Mathlib
import RustZero.Lib.NestedMaps
import RustZero.Auth
import RustZero.TranscodeCaptures

/-!
# The message of a request

`gateway/src/transcode.rs`, `request_message`: the JSON object of the body, into which the
captures of the path and then the parameters of the query are inserted at their dotted paths,
is read as the input message of the method.

* The reading of JSON and of messages are parameters.
* An object of `serde_json` is the list of its members; a value that is none ends the walk of
  `insert_json_path` in its `expect`, which is `panicked` here.
* `Captures` lists the captures in the order of their names, as its `BTreeMap` does.
-/

namespace RustZero.Transcode

open Std Lib Hash Auth

/-- How a request ends without a message. -/
inductive Failure where
  | panicked
  | error (error : TranscodeError)
  deriving DecidableEq, Repr

/-! ## Values of the request -/

def jsonMembers : Value → Option (List (String × Value))
  | .object members => some members
  | _ => none

/-- How JSON values nest. -/
def jsonMaps : NestedMap String Value where
  members := jsonMembers
  node := .object
  members_node _ := rfl

def decimal (digits : List Char) : Option Nat :=
  if digits ≠ [] ∧ digits.all Char.isDigit then
    some (digits.foldl (fun value digit => value * 10 + (digit.toNat - 48)) 0)
  else none

/-- `str::parse` to an `i32`. -/
def parseI32 (text : String) : Option Int :=
  match text.toList with
  | '-' :: digits => ((decimal digits).filter (· ≤ 2 ^ 31)).map fun value => -(value : Int)
  | '+' :: digits => ((decimal digits).filter (· < 2 ^ 31)).map Int.ofNat
  | digits => ((decimal digits).filter (· < 2 ^ 31)).map Int.ofNat

/-- `str::parse` to a `u32`. -/
def parseU32 (text : String) : Option Nat :=
  match text.toList with
  | '+' :: digits => (decimal digits).filter (· < 2 ^ 32)
  | digits => (decimal digits).filter (· < 2 ^ 32)

def parseBool (text : String) : Option Bool :=
  if text = "true" then some true else if text = "false" then some false else none

def numberOf (value : Int) : Number :=
  if value < 0 then .negInt value else .posInt (UInt64.ofNat value.toNat)

/-- `get_field_by_name`, and `json_name` for a name that is none. -/
def findField (descriptor : MessageDescriptor) (name : String) : Option FieldDescriptor :=
  (descriptor.fields.find? fun field => field.name == name).or
    (descriptor.fields.find? fun field => field.jsonName == name)

/-- The part of a dotted path before its first dot. -/
def topOf (path : String) : String := ((split '.' path).head?).getD path

/-- The value that a text is for the kind of the first field of its path. -/
def typedValue (descriptor : MessageDescriptor) (path raw : String) :
    Except TranscodeError Value := do
  let field ← okOr (findField descriptor (topOf path))
    (.invalidRequest ("unknown request field " ++ path))
  match field.kind with
  | .bool => do
      let value ← okOr (parseBool raw) (.invalidRequest ("field " ++ path ++ " must be a boolean"))
      .ok (.bool value)
  | .int32 | .sint32 | .sfixed32 => do
      let value ← okOr (parseI32 raw) (.invalidRequest ("field " ++ path ++ " must be an integer"))
      .ok (.number (numberOf value))
  | .uint32 | .fixed32 => do
      let value ← okOr (parseU32 raw)
        (.invalidRequest ("field " ++ path ++ " must be an unsigned integer"))
      .ok (.number (.posInt (UInt64.ofNat value)))
  | .other => .ok (.string raw)

def insertJsonPath (object : Value) (path : String) (value : Value) : Except Failure Value :=
  okOr (jsonMaps.insertAt (split '.' path) value object) .panicked

def insertTypedValue (descriptor : MessageDescriptor) (object : Value) (path raw : String) :
    Except Failure Value := do
  let value ← (typedValue descriptor path raw).mapError .error
  insertJsonPath object path value

/-! ## The request -/

/-- `split_once('=')` with an empty value where there is no sign. -/
def nameAndValue (pair : String) : String × String :=
  let chars := pair.toList
  (String.ofList (chars.takeWhile (· != '=')), String.ofList (chars.dropWhile (· != '=')).tail)

def queryPairs (query : String) : List String := (split '&' query).filter (· != "")

def bodyValue (parse : List UInt8 → Except String Value) (body : List UInt8) :
    Except Failure Value :=
  if body = [] then .ok (.object [])
  else (parse body).mapError fun error => .error (.invalidJson error)

/-- The value of the body, under the field that it is bound to. -/
def bindBody (binding : HttpBinding) (body : List UInt8) (value : Value) :
    Except Failure Value :=
  match binding.body with
  | some field => if field ≠ "*" then insertJsonPath (.object []) field value else .ok value
  | none => if body ≠ [] then .error (.error .unexpectedBody) else .ok value

def startObject (parse : List UInt8 → Except String Value) (binding : HttpBinding)
    (body : List UInt8) : Except Failure Value := do
  let value ← bodyValue parse body
  let object ← bindBody binding body value
  ensure (jsonMembers object).isSome
    (.error (.invalidRequest "request JSON must be an object"))
  .ok object

def insertCapture (descriptor : MessageDescriptor) (object : Value) (capture : String × String) :
    Except Failure Value :=
  insertTypedValue descriptor object capture.1 capture.2

def insertQueryPair (descriptor : MessageDescriptor) (object : Value) (pair : String) :
    Except Failure Value := do
  let name ← (percentDecode (nameAndValue pair).1).mapError .error
  let raw ← (percentDecode (nameAndValue pair).2).mapError .error
  insertTypedValue descriptor object name raw

/-- The object that the message is read from. -/
def requestObject (parse : List UInt8 → Except String Value) (route : Route)
    (captures : Captures) (query : String) (body : List UInt8) : Except Failure Value := do
  let object ← startObject parse route.binding body
  let object ← captures.toList.foldlM (insertCapture route.method.input) object
  (queryPairs query).foldlM (insertQueryPair route.method.input) object

def requestMessage {μ : Type} (parse : List UInt8 → Except String Value)
    (deserialize : MessageDescriptor → Value → Except String μ) (route : Route)
    (captures : Captures) (query : String) (body : List UInt8) : Except Failure μ := do
  let object ← requestObject parse route captures query body
  (deserialize route.method.input object).mapError fun error => .error (.invalidJson error)

/-! ## One list of insertions -/

/-- A path and the value that is inserted there. -/
abbrev Insertion := List String × Value

def insertionOf (descriptor : MessageDescriptor) (path raw : String) :
    Except TranscodeError Insertion := do
  let value ← typedValue descriptor path raw
  .ok (split '.' path, value)

def queryInsertion (descriptor : MessageDescriptor) (pair : String) :
    Except TranscodeError Insertion := do
  let name ← percentDecode (nameAndValue pair).1
  let raw ← percentDecode (nameAndValue pair).2
  insertionOf descriptor name raw

/-- What the captures and then the query ask to insert. -/
def attempts (descriptor : MessageDescriptor) (captures : Captures) (query : String) :
    List (Except TranscodeError Insertion) :=
  (captures.toList.map fun capture => insertionOf descriptor capture.1 capture.2) ++
    (queryPairs query).map (queryInsertion descriptor)

/-- The insertions before the first error. -/
def reached : List (Except TranscodeError Insertion) → List Insertion
  | .ok insertion :: rest => insertion :: reached rest
  | _ => []

def insertAttempt (object : Value) (attempt : Except TranscodeError Insertion) :
    Except Failure Value := do
  let insertion ← attempt.mapError .error
  okOr (jsonMaps.insertAt insertion.1 insertion.2 object) .panicked

section Insertions

variable {descriptor : MessageDescriptor} {captures : Captures} {query : String}
  {steps : List (Except TranscodeError Insertion)} {object result : Value}

theorem insertTypedValue_eq (object : Value) (path raw : String) :
    insertTypedValue descriptor object path raw =
      insertAttempt object (insertionOf descriptor path raw) := by
  unfold insertTypedValue insertAttempt insertionOf
  cases typedValue descriptor path raw with
  | error error => rfl
  | ok value => rfl

theorem insertQueryPair_eq (object : Value) (pair : String) :
    insertQueryPair descriptor object pair =
      insertAttempt object (queryInsertion descriptor pair) := by
  unfold insertQueryPair queryInsertion
  cases percentDecode (nameAndValue pair).1 with
  | error error => rfl
  | ok name =>
      cases percentDecode (nameAndValue pair).2 with
      | error error => rfl
      | ok raw => exact insertTypedValue_eq object name raw

theorem requestObject_eq (parse : List UInt8 → Except String Value) (route : Route)
    (captures : Captures) (query : String) (body : List UInt8) :
    requestObject parse route captures query body =
      startObject parse route.binding body >>= fun object =>
        (attempts route.method.input captures query).foldlM insertAttempt object := by
  have capture : insertCapture route.method.input = fun object capture =>
      insertAttempt object (insertionOf route.method.input capture.1 capture.2) := by
    funext object capture
    exact insertTypedValue_eq object capture.1 capture.2
  have pair : insertQueryPair route.method.input = fun object pair =>
      insertAttempt object (queryInsertion route.method.input pair) := by
    funext object pair
    exact insertQueryPair_eq object pair
  unfold requestObject attempts
  simp only [capture, pair, List.foldlM_append, List.foldlM_map]

/-- The loops panic exactly where the insertions before the first error fail. -/
theorem foldlM_insertAttempt_panics :
    steps.foldlM insertAttempt object = .error .panicked ↔
      jsonMaps.insertAll (reached steps) object = none := by
  induction steps generalizing object with
  | nil =>
      constructor
      · intro failed
        cases failed
      · intro failed
        cases failed
  | cons attempt rest ih =>
      rw [List.foldlM_cons]
      cases attempt with
      | error error =>
          constructor
          · intro failed
            cases failed
          · intro failed
            cases failed
      | ok insertion =>
          rw [reached, NestedMap.insertAll, insertAttempt]
          change (okOr (jsonMaps.insertAt insertion.1 insertion.2 object) Failure.panicked >>=
            fun next => rest.foldlM insertAttempt next) = _ ↔ _
          cases jsonMaps.insertAt insertion.1 insertion.2 object with
          | none => exact iff_of_true rfl rfl
          | some next => exact ih

/-- The loops succeed exactly if nothing is in error and all insertions succeed. -/
theorem foldlM_insertAttempt_ok (done : steps.foldlM insertAttempt object = .ok result) :
    steps = (reached steps).map .ok ∧
      jsonMaps.insertAll (reached steps) object = some result := by
  induction steps generalizing object with
  | nil =>
      cases done
      exact ⟨rfl, rfl⟩
  | cons attempt rest ih =>
      rw [List.foldlM_cons] at done
      obtain ⟨next, inserted, later⟩ := bind_eq_ok done
      cases attempt with
      | error error => cases inserted
      | ok insertion =>
          have inserted : jsonMaps.insertAt insertion.1 insertion.2 object = some next :=
            okOr_eq_ok.mp inserted
          obtain ⟨all, whole⟩ := ih later
          rw [reached, NestedMap.insertAll, inserted]
          exact ⟨congrArg _ all, whole⟩

theorem typedValue_leaf {path raw : String} {value : Value}
    (typed : typedValue descriptor path raw = .ok value) : jsonMaps.IsLeaf value := by
  obtain ⟨field, _, typed⟩ := bind_eq_ok typed
  cases kind : field.kind <;> rw [kind] at typed
  case other =>
    cases typed
    rfl
  all_goals
    obtain ⟨_, _, same⟩ := bind_eq_ok typed
    cases same
    rfl

/-- A text has some path and no object to be inserted there. -/
theorem insertionOf_sound {path raw : String} {insertion : Insertion}
    (made : insertionOf descriptor path raw = .ok insertion) :
    insertion.1 ≠ [] ∧ jsonMaps.IsLeaf insertion.2 := by
  obtain ⟨value, typed, same⟩ := bind_eq_ok made
  cases same
  exact ⟨by simp [split, List.splitOn_ne_nil], typedValue_leaf typed⟩

theorem queryInsertion_sound {pair : String} {insertion : Insertion}
    (made : queryInsertion descriptor pair = .ok insertion) :
    insertion.1 ≠ [] ∧ jsonMaps.IsLeaf insertion.2 := by
  obtain ⟨_, _, rest⟩ := bind_eq_ok made
  obtain ⟨_, _, made⟩ := bind_eq_ok rest
  exact insertionOf_sound made

theorem mem_of_mem_reached {insertion : Insertion} (member : insertion ∈ reached steps) :
    .ok insertion ∈ steps := by
  induction steps with
  | nil => cases member
  | cons attempt rest ih =>
      cases attempt with
      | error error => cases member
      | ok first =>
          rcases List.mem_cons.mp member with same | later
          · exact same ▸ List.mem_cons_self
          · exact List.mem_cons_of_mem _ (ih later)

theorem reached_sound {insertion : Insertion}
    (member : insertion ∈ reached (attempts descriptor captures query)) :
    insertion.1 ≠ [] ∧ jsonMaps.IsLeaf insertion.2 := by
  rcases List.mem_append.mp (mem_of_mem_reached member) with captured | asked
  · obtain ⟨_, _, made⟩ := List.mem_map.mp captured
    exact insertionOf_sound made
  · obtain ⟨_, _, made⟩ := List.mem_map.mp asked
    exact queryInsertion_sound made

end Insertions

/-! ## Panics -/

/-- On the way to no insertion an earlier one, or the object they begin with, has anything but
an object. -/
def Unobstructed (insertions : List Insertion) (start : Value) : Prop :=
  ∀ earlier insertion later, insertions = earlier ++ insertion :: later →
    ∀ before key after, insertion.1 = before ++ key :: after →
      before ∉ earlier.map Prod.fst ∧
        ∀ value, jsonMaps.valueAt before start = some value → ¬jsonMaps.IsLeaf value

theorem unobstructed_iff {insertions : List Insertion} {start : Value}
    (leaves : ∀ insertion ∈ insertions, jsonMaps.IsLeaf insertion.2) :
    Unobstructed insertions start ↔ jsonMaps.insertAll insertions start ≠ none := by
  rw [ne_eq, NestedMap.insertAll_eq_none_iff leaves]
  constructor
  · intro clear held
    obtain ⟨earlier, insertion, later, split, before, key, after, way, found⟩ := held
    obtain ⟨unlisted, objects⟩ := clear earlier insertion later split before key after way
    rcases found with listed | ⟨leaf, here, isLeaf⟩
    · exact unlisted listed
    · exact objects leaf here isLeaf
  · intro clear earlier insertion later split before key after way
    refine ⟨?_, ?_⟩
    · intro listed
      exact clear ⟨earlier, insertion, later, split, before, key, after, way, .inl listed⟩
    · intro value here isLeaf
      exact clear ⟨earlier, insertion, later, split, before, key, after, way,
        .inr ⟨value, here, isLeaf⟩⟩

/-- Nothing is in the way of a path into an empty object. -/
theorem insertJsonPath_empty (path : String) (value : Value) :
    insertJsonPath (.object []) path value ≠ .error .panicked := by
  intro failed
  unfold insertJsonPath at failed
  cases made : jsonMaps.insertAt (split '.' path) value (.object []) with
  | some next =>
      rw [made] at failed
      cases failed
  | none =>
      obtain ⟨before, key, after, leaf, _, here, isLeaf⟩ := NestedMap.insertAt_eq_none_iff.mp made
      cases before with
      | nil =>
          cases here
          cases isLeaf
      | cons first before =>
          have empty : jsonMaps.valueAt (first :: before) (jsonMaps.node []) = none :=
            NestedMap.valueAt_empty (List.cons_ne_nil first before)
          cases here.symm.trans empty

theorem startObject_not_panicked (parse : List UInt8 → Except String Value)
    (binding : HttpBinding) (body : List UInt8) :
    startObject parse binding body ≠ .error .panicked := by
  intro failed
  rcases bind_eq_error failed with unread | ⟨value, _, failed⟩
  · unfold bodyValue at unread
    split at unread
    · cases unread
    · cases parsed : parse body <;> rw [parsed] at unread <;> cases unread
  · rcases bind_eq_error failed with unbound | ⟨object, _, failed⟩
    · unfold bindBody at unbound
      split at unbound
      · split at unbound
        · exact insertJsonPath_empty _ _ unbound
        · cases unbound
      · split at unbound <;> cases unbound
    · cases shape : (jsonMembers object).isSome <;> rw [shape] at failed <;> cases failed

/-- When a request ends with a message or an error. -/
theorem request_message_returns_iff {μ : Type} (parse : List UInt8 → Except String Value)
    (deserialize : MessageDescriptor → Value → Except String μ) (route : Route)
    (captures : Captures) (query : String) (body : List UInt8) :
    requestMessage parse deserialize route captures query body ≠ .error .panicked ↔
      ∀ start, startObject parse route.binding body = .ok start →
        Unobstructed (reached (attempts route.method.input captures query)) start := by
  have inserts : requestMessage parse deserialize route captures query body = .error .panicked ↔
      requestObject parse route captures query body = .error .panicked := by
    constructor
    · intro failed
      rcases bind_eq_error failed with inserting | ⟨object, _, reading⟩
      · exact inserting
      · cases read : deserialize route.method.input object <;> rw [read] at reading <;>
          cases reading
    · intro failed
      unfold requestMessage
      rw [failed]
      rfl
  rw [ne_eq, inserts, requestObject_eq]
  cases begun : startObject parse route.binding body with
  | error failure =>
      have other : failure ≠ .panicked := fun same =>
        startObject_not_panicked parse route.binding body (same ▸ begun)
      refine iff_of_true ?_ (by simp)
      intro failed
      cases failed
      exact other rfl
  | ok start =>
      have panics : (attempts route.method.input captures query).foldlM insertAttempt start =
          .error .panicked ↔ _ := foldlM_insertAttempt_panics
      have leaves : ∀ insertion ∈ reached (attempts route.method.input captures query),
          jsonMaps.IsLeaf insertion.2 := fun _ member => (reached_sound member).2
      have clear : Unobstructed _ start ↔ _ := unobstructed_iff leaves
      constructor
      · intro total other same
        cases same
        exact clear.mpr fun failed => total (panics.mpr failed)
      · intro unobstructed failed
        exact clear.mp (unobstructed start rfl) (panics.mp failed)

/-- A user is looked up by the identifier in the path. -/
def userRoute : Route :=
  ⟨⟨.get, "/v1/{id}", "/v1.Users/Get", none⟩,
    ⟨"Get", false, ⟨[⟨"v1.GetUser.id", "id", "id", .other⟩]⟩⟩⟩

/-- A parameter below a field that the path binds to a text. -/
theorem request_message_panics_below_capture :
    ∃ captures, matchTemplate userRoute.binding.path "/v1/7" = some captures ∧
      ∀ (μ : Type) (parse : List UInt8 → Except String Value)
        (deserialize : MessageDescriptor → Value → Except String μ),
        requestMessage parse deserialize userRoute captures "id.x=1" [] = .error .panicked := by
  have fails : (matchTemplate userRoute.binding.path "/v1/7").map (fun captures =>
      (jsonMaps.insertAll (reached (attempts userRoute.method.input captures "id.x=1"))
        (.object [])).isNone) = some true := by
    decide +kernel
  obtain ⟨captures, matched, none⟩ := Option.map_eq_some_iff.mp fails
  refine ⟨captures, matched, ?_⟩
  intro μ parse deserialize
  have panics := foldlM_insertAttempt_panics.mpr (Option.isNone_iff_eq_none.mp none)
  have object : requestObject parse userRoute captures "id.x=1" [] = .error .panicked :=
    (requestObject_eq parse userRoute captures "id.x=1" []).trans panics
  unfold requestMessage
  rw [object]
  rfl

end RustZero.Transcode
