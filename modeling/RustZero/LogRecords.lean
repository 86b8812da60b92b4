import Mathlib
import RustZero.Lib.Json
import RustZero.Lib.Utf8
import RustZero.Log
import RustZero.Trace

/-!
# Log records

`Logger::log_with_context` of `core/src/log.rs`: the record of a message, its two encodings, and
the bytes that the sink is given.

* `SerdeJson` is what the logger uses of `serde_json`: how strings are written, and the order in
  which a map is iterated.
* `oneRecord_iff`: a record is one line, and has the logger's own values, exactly if the plain
  encoding is given no line feed in the service name, the message or a key.
-/

namespace RustZero.LogRecords

open Lib
open Std (ExtTreeMap)
open RustZero.Trace (TraceContext encodeHex)

abbrev Bytes := List UInt8

/-! ## Maps and values -/

/-- `serde_json::Map`: every key once, in the order of insertion. -/
abbrev Map := List (String × Json)

namespace Map

def keys (map : Map) : List String := map.map Prod.fst

/-- The value of a key that is there is replaced. -/
def insert (map : Map) (key : String) (value : Json) : Map :=
  if key ∈ keys map then map.map fun entry => if entry.1 = key then (key, value) else entry
  else map ++ [(key, value)]

/-- Entries are inserted one after the other. -/
def insertAll (map : Map) (entries : Map) : Map :=
  entries.foldl (fun map entry => insert map entry.1 entry.2) map

end Map

/-- What the logger uses of `serde_json`.  A map is iterated by key, or by insertion where the
feature `preserve_order` is on. -/
structure SerdeJson where
  string : String → List Char
  writes : WritesStrings string
  iterate : Map → Map
  perm : ∀ map, (iterate map).Perm map

/-- `Value::as_str` of an entry, or nothing. -/
def asStr (map : Map) (key : String) : String :=
  match map.lookup key with
  | some (.string text) => text
  | _ => ""

/-! ## Loggers -/

inductive LogLevel where
  | debug
  | info
  | slow
  | warn
  | error
  | severe
  deriving DecidableEq

namespace LogLevel

def asStr : LogLevel → String
  | debug => "debug"
  | info => "info"
  | slow => "slow"
  | warn => "warn"
  | error => "error"
  | severe => "severe"

/-- The place among the levels. -/
def rank : LogLevel → Nat
  | debug => 0
  | info => 1
  | slow => 2
  | warn => 3
  | error => 4
  | severe => 5

end LogLevel

inductive LogEncoding where
  | json
  | plain
  deriving DecidableEq

structure LogConfig where
  serviceName : String
  level : LogLevel
  encoding : LogEncoding
  maxContentLength : Option Nat

structure LogField where
  key : String
  value : Json

structure LogContext where
  fields : ExtTreeMap String Json
  trace : Option TraceContext

/-- The time since the epoch. -/
structure Duration where
  seconds : Nat
  subsecMillis : Nat

def LogConfig.enabled (config : LogConfig) (level : LogLevel) : Bool :=
  config.level.rank ≤ level.rank

def truncate (value : String) (limit : Option Nat) : String :=
  match limit with
  | none => value
  | some limit => String.ofList (value.toList.take limit)

def timestamp (now : Duration) : String :=
  let seconds := Log.asI64 now.seconds
  let day := seconds / 86400
  let secondsInDay := seconds % 86400
  let hour := secondsInDay.tdiv 3600
  let minute := (secondsInDay.tmod 3600).tdiv 60
  let second := secondsInDay.tmod 60
  Log.dateFromUnixDay day ++ "T" ++ Log.zeroPadded 2 hour ++ ":" ++ Log.zeroPadded 2 minute ++
    ":" ++ Log.zeroPadded 2 second ++ "." ++ Log.zeroPadded 3 now.subsecMillis ++ "Z"

/-- The fields of the trace, if there is one. -/
def traceFields (context : Option LogContext) : List (String × String) :=
  match context.bind LogContext.trace with
  | some trace => [("trace_id", encodeHex trace.traceId.1), ("span_id", encodeHex trace.spanId.1)]
  | none => []

/-- The fields that the framework owns. -/
def frameworkFields (config : LogConfig) (now : Duration) (level : LogLevel) (message : String)
    (context : Option LogContext) : List (String × String) :=
  [("timestamp", timestamp now), ("level", level.asStr), ("service", config.serviceName),
    ("message", truncate message config.maxContentLength)] ++ traceFields context

/-- The fields of a context, by key. -/
def contextFields (context : Option LogContext) : Map :=
  match context with
  | some context => context.fields.toList
  | none => []

/-- The fields of the caller: those of the context, and those of the record. -/
def callerFields (context : Option LogContext) (fields : List LogField) : Map :=
  contextFields context ++ fields.map fun field => (field.key, field.value)

/-- `Logger::record`; the framework's fields are inserted last. -/
def record (config : LogConfig) (now : Duration) (level : LogLevel) (message : String)
    (context : Option LogContext) (fields : List LogField) : Map :=
  Map.insertAll (Map.insertAll [] (callerFields context fields))
    ((frameworkFields config now level message context).map fun field =>
      (field.1, .string field.2))

/-- `Value::to_string`. -/
def valueText (serde : SerdeJson) (value : Json) : String :=
  String.ofList (value.write serde.string)

/-- `serde_json::to_vec`, as a text. -/
def toVec (serde : SerdeJson) (record : Map) : String :=
  valueText serde (.object (serde.iterate record))

/-- The keys that `encode_plain` writes in front. -/
def frontKeys : List String := ["timestamp", "level", "service", "message"]

/-- `encode_plain`, as a text. -/
def encodePlain (serde : SerdeJson) (record : Map) : String :=
  asStr record "timestamp" ++ " " ++ asStr record "level" ++ " " ++ asStr record "service" ++
    ": " ++ asStr record "message" ++
    String.join ((serde.iterate record).map fun entry =>
      if entry.1 ∈ frontKeys then "" else " " ++ entry.1 ++ "=" ++ valueText serde entry.2)

/-- `log_with_context`: what the sink is given, if anything. -/
def logWithContext (serde : SerdeJson) (config : LogConfig) (now : Duration) (level : LogLevel)
    (message : String) (context : Option LogContext) (fields : List LogField) : Option Bytes :=
  if config.enabled level then
    let record := record config now level message context fields
    let encoded :=
      match config.encoding with
      | .json => toVec serde record
      | .plain => encodePlain serde record
    some (utf8 encoded ++ [10])
  else none

/-! ## What a record promises -/

/-- One line feed, at the end. -/
def OneLine (bytes : Bytes) : Prop :=
  ∃ front, bytes = front ++ [10] ∧ 10 ∉ front

/-- The line is an object with these texts, and no key twice. -/
def Authentic (expected : List (String × String)) (bytes : Bytes) : Prop :=
  ∃ (line : String) (entries : Map), bytes = utf8 line ++ [10] ∧
    Json.parse line.toList = some (.object entries) ∧ entries.keys.Nodup ∧
      ∀ field ∈ expected, entries.lookup field.1 = some (.string field.2)

/-- What is handed to the sink is one line, and in JSON it has the framework's values. -/
def OneRecord (serde : SerdeJson) (config : LogConfig) (now : Duration) (level : LogLevel)
    (message : String) (context : Option LogContext) (fields : List LogField) : Prop :=
  ∀ bytes, logWithContext serde config now level message context fields = some bytes →
    OneLine bytes ∧ (config.encoding = .json →
      Authentic (frameworkFields config now level message context) bytes)

/-- No line feed. -/
def LineFree (text : String) : Prop := '\n' ∉ text.toList

instance (text : String) : Decidable (LineFree text) :=
  inferInstanceAs (Decidable (_ ∉ _))

/-- What `encode_plain` writes as it is has no line feed. -/
structure PlainFree (config : LogConfig) (message : String) (context : Option LogContext)
    (fields : List LogField) : Prop where
  service : LineFree config.serviceName
  message : LineFree (truncate message config.maxContentLength)
  context : ∀ given, context = some given → ∀ key ∈ given.fields, LineFree key
  fields : ∀ field ∈ fields, LineFree field.key

/-! ## Maps -/

namespace Map

variable {map map' : Map} {key other : String} {value : Json}

theorem lookup_eq_none : map.lookup key = none ↔ key ∉ map.keys := by
  rw [List.lookup_eq_none_iff, keys, List.mem_map]
  constructor
  · intro others found
    obtain ⟨entry, member, same⟩ := found
    exact absurd (others entry member) (by simp [same])
  · intro absent entry member
    rw [bne_iff_ne]
    intro same
    exact absent ⟨entry, member, same.symm⟩

/-- With every key once, a lookup finds the entries. -/
theorem lookup_eq_some (distinct : map.keys.Nodup) :
    map.lookup key = some value ↔ (key, value) ∈ map := by
  constructor
  · intro found
    obtain ⟨before, after, same, _⟩ := List.lookup_eq_some_iff.mp found
    rw [same]
    exact List.mem_append_right _ List.mem_cons_self
  · intro member
    obtain ⟨before, after, same⟩ := List.append_of_mem member
    refine List.lookup_eq_some_iff.mpr ⟨before, after, same, ?_⟩
    intro entry earlier
    rw [bne_iff_ne]
    intro equal
    rw [same, keys, List.map_append, List.map_cons, List.nodup_append] at distinct
    exact distinct.2.2 entry.1 (List.mem_map_of_mem earlier) key List.mem_cons_self equal.symm

theorem lookup_perm (perm : map'.Perm map) (distinct : map.keys.Nodup)
    (found : map.lookup key = some value) : map'.lookup key = some value := by
  have distinct' : map'.keys.Nodup := (perm.map Prod.fst).nodup_iff.mpr distinct
  rw [lookup_eq_some distinct] at found
  exact (lookup_eq_some distinct').mpr (perm.mem_iff.mpr found)

theorem keys_insert (map : Map) (key : String) (value : Json) :
    (map.insert key value).keys = if key ∈ map.keys then map.keys else map.keys ++ [key] := by
  rw [insert]
  split
  case isTrue =>
    rw [keys, keys, List.map_map]
    apply List.map_congr_left
    intro entry _
    rw [Function.comp_apply]
    split
    case isTrue same => exact same.symm
    case isFalse => rfl
  case isFalse =>
    rw [keys, keys, List.map_append]
    rfl

theorem mem_keys_insert : other ∈ (map.insert key value).keys ↔ other ∈ map.keys ∨ other = key := by
  rw [keys_insert]
  split
  case isTrue inside =>
    constructor
    · intro member
      exact .inl member
    · intro either
      rcases either with member | rfl
      · exact member
      · exact inside
  case isFalse => rw [List.mem_append, List.mem_singleton]

theorem nodup_insert (distinct : map.keys.Nodup) : (map.insert key value).keys.Nodup := by
  rw [keys_insert]
  split
  case isTrue => exact distinct
  case isFalse absent =>
    refine List.nodup_append.mpr ⟨distinct, List.nodup_singleton _, ?_⟩
    intro known member new listed same
    rw [List.mem_singleton] at listed
    subst same listed
    exact absent member

theorem mem_insert_self (map : Map) (key : String) (value : Json) :
    (key, value) ∈ map.insert key value := by
  rw [insert]
  split
  case isTrue inside =>
    obtain ⟨entry, member, same⟩ := List.mem_map.mp inside
    exact List.mem_map.mpr ⟨entry, member, if_pos same⟩
  case isFalse => exact List.mem_append_right _ (List.mem_singleton_self _)

theorem mem_insert_of_ne {entry : String × Json} (member : entry ∈ map) (differ : entry.1 ≠ key) :
    entry ∈ map.insert key value := by
  rw [insert]
  split
  case isTrue => exact List.mem_map.mpr ⟨entry, member, if_neg differ⟩
  case isFalse => exact List.mem_append_left _ member

theorem insertAll_cons (map : Map) (entry : String × Json) (entries : Map) :
    map.insertAll (entry :: entries) = (map.insert entry.1 entry.2).insertAll entries := rfl

theorem mem_keys_insertAll {entries : Map} :
    key ∈ (map.insertAll entries).keys ↔ key ∈ map.keys ∨ key ∈ entries.keys := by
  induction entries generalizing map with
  | nil => simp [insertAll, keys]
  | cons entry entries ih =>
      have cons : Map.keys (entry :: entries) = entry.1 :: Map.keys entries := rfl
      rw [insertAll_cons, ih, mem_keys_insert, cons, List.mem_cons, or_assoc]

theorem nodup_insertAll {entries : Map} (distinct : map.keys.Nodup) :
    (map.insertAll entries).keys.Nodup := by
  induction entries generalizing map with
  | nil => exact distinct
  | cons entry entries ih => exact ih (nodup_insert distinct)

theorem mem_insertAll_of_mem {entries : Map} {entry : String × Json} (member : entry ∈ map)
    (others : entry.1 ∉ entries.keys) : entry ∈ map.insertAll entries := by
  induction entries generalizing map with
  | nil => exact member
  | cons first entries ih =>
      have cons : Map.keys (first :: entries) = first.1 :: Map.keys entries := rfl
      rw [cons, List.mem_cons, not_or] at others
      exact ih (mem_insert_of_ne member others.1) others.2

/-- What is inserted last is there. -/
theorem mem_insertAll {entries : Map} (distinct : entries.keys.Nodup) {entry : String × Json}
    (member : entry ∈ entries) : entry ∈ map.insertAll entries := by
  induction entries generalizing map with
  | nil => cases member
  | cons first entries ih =>
      have cons : Map.keys (first :: entries) = first.1 :: Map.keys entries := rfl
      rw [cons, List.nodup_cons] at distinct
      rcases List.mem_cons.mp member with rfl | later
      · rw [insertAll_cons]
        exact mem_insertAll_of_mem (mem_insert_self map entry.1 entry.2) distinct.1
      · exact ih distinct.2 later

end Map

/-! ## Records -/

section Record

variable {serde : SerdeJson} {config : LogConfig} {now : Duration} {level : LogLevel}
  {message : String} {context : Option LogContext} {fields : List LogField}

/-- The framework's fields, as they are inserted. -/
theorem frameworkKeys (config : LogConfig) (now : Duration) (level : LogLevel) (message : String)
    (context : Option LogContext) :
    Map.keys ((frameworkFields config now level message context).map fun field =>
      (field.1, .string field.2)) = frontKeys ++ (traceFields context).map Prod.fst := by
  simp [Map.keys, frameworkFields, frontKeys, Function.comp_def]

theorem frameworkKeys_nodup (context : Option LogContext) :
    (frontKeys ++ (traceFields context).map Prod.fst).Nodup := by
  have both : (frontKeys ++ ["trace_id", "span_id"]).Nodup := by decide
  have front : (frontKeys ++ []).Nodup := by decide
  rw [traceFields]
  split
  case h_1 => exact both
  case h_2 => exact front

theorem frameworkKeys_lineFree {context : Option LogContext} {key : String}
    (member : key ∈ frontKeys ++ (traceFields context).map Prod.fst) : LineFree key := by
  have all : ∀ key ∈ frontKeys ++ ["trace_id", "span_id"], '\n' ∉ key.toList := by
    decide +kernel
  apply all key
  rcases List.mem_append.mp member with front | trace
  · exact List.mem_append_left _ front
  · rw [traceFields] at trace
    split at trace
    case h_1 => exact List.mem_append_right _ trace
    case h_2 => cases trace

theorem record_nodup : (record config now level message context fields).keys.Nodup :=
  Map.nodup_insertAll (Map.nodup_insertAll List.nodup_nil)

/-- Whatever the caller supplied, the framework's fields have its values. -/
theorem record_framework {field : String × String}
    (member : field ∈ frameworkFields config now level message context) :
    (record config now level message context fields).lookup field.1 = some (.string field.2) := by
  rw [Map.lookup_eq_some record_nodup]
  apply Map.mem_insertAll
  · rw [frameworkKeys]
    exact frameworkKeys_nodup context
  · exact List.mem_map_of_mem (f := fun field : String × String =>
      (field.1, Json.string field.2)) member

theorem mem_record_keys {key : String} :
    key ∈ (record config now level message context fields).keys ↔
      key ∈ (callerFields context fields).keys ∨
        key ∈ frontKeys ++ (traceFields context).map Prod.fst := by
  rw [record, Map.mem_keys_insertAll, Map.mem_keys_insertAll, frameworkKeys]
  simp [Map.keys]

/-! ## Encodings -/

theorem valueText_lineFree (serde : SerdeJson) (value : Json) :
    LineFree (valueText serde value) := by
  rw [LineFree, valueText, String.toList_ofList]
  exact Json.line_free serde.writes value

/-- In JSON the line is read as the record, whatever is in it. -/
theorem toVec_authentic : Authentic (frameworkFields config now level message context)
    (utf8 (toVec serde (record config now level message context fields)) ++ [10]) := by
  have perm := serde.perm (record config now level message context fields)
  refine ⟨_, serde.iterate (record config now level message context fields), rfl, ?_, ?_, ?_⟩
  · rw [toVec, valueText, String.toList_ofList]
    exact Json.parse_write serde.writes _
  · exact (perm.map Prod.fst).nodup_iff.mpr record_nodup
  · intro field member
    exact Map.lookup_perm perm record_nodup (record_framework member)

theorem zeroPadded_lineFree (width : Nat) (value : Int) :
    LineFree (Log.zeroPadded width value) := by
  have digits : '\n' ∉ (toString value.natAbs).toList := not_mem_toString (by decide) value.natAbs
  rw [LineFree, Log.zeroPadded]
  simp only [String.toList_append, String.toList_ofList, List.mem_append, List.mem_replicate,
    not_or, not_and]
  refine ⟨⟨?_, ?_⟩, digits⟩
  · split <;> decide
  · intro _ same
    cases same

theorem lineFree_append {first second : String} :
    LineFree (first ++ second) ↔ LineFree first ∧ LineFree second := by
  rw [LineFree, String.toList_append, List.mem_append, not_or]
  rfl

theorem timestamp_lineFree (now : Duration) : LineFree (timestamp now) := by
  simp only [timestamp, Log.dateFromUnixDay, lineFree_append, zeroPadded_lineFree, true_and,
    and_true]
  decide +kernel

theorem asStr_of_lookup {map : Map} {key text : String}
    (found : map.lookup key = some (.string text)) : asStr map key = text := by
  rw [asStr, found]

/-- What `encode_plain` writes of a record: the framework's values in front, and the other
entries. -/
theorem encodePlain_record : encodePlain serde (record config now level message context fields) =
    timestamp now ++ " " ++ level.asStr ++ " " ++ config.serviceName ++ ": " ++
      truncate message config.maxContentLength ++
        String.join ((serde.iterate (record config now level message context fields)).map
          fun entry => if entry.1 ∈ frontKeys then ""
            else " " ++ entry.1 ++ "=" ++ valueText serde entry.2) := by
  have own {key text : String} (member : (key, text) ∈ [("timestamp", timestamp now),
      ("level", level.asStr), ("service", config.serviceName),
      ("message", truncate message config.maxContentLength)]) :
      asStr (record config now level message context fields) key = text :=
    asStr_of_lookup (record_framework (List.mem_append_left _ member))
  have time : asStr (record config now level message context fields) "timestamp" =
      timestamp now := own (by simp)
  have severity : asStr (record config now level message context fields) "level" =
      level.asStr := own (by simp)
  have service : asStr (record config now level message context fields) "service" =
      config.serviceName := own (by simp)
  have text : asStr (record config now level message context fields) "message" =
      truncate message config.maxContentLength := own (by simp)
  rw [encodePlain, time, severity, service, text]

theorem lineFree_join {texts : List String} :
    LineFree (String.join texts) ↔ ∀ text ∈ texts, LineFree text := by
  simp only [LineFree, String.toList_join, List.mem_flatMap, not_exists, not_and]

/-- The plain encoding has a line feed where the service name, the message or a key has one. -/
theorem encodePlain_lineFree :
    LineFree (encodePlain serde (record config now level message context fields)) ↔
      LineFree config.serviceName ∧ LineFree (truncate message config.maxContentLength) ∧
        ∀ key ∈ (callerFields context fields).keys, LineFree key := by
  have perm := (serde.perm (record config now level message context fields)).map Prod.fst
  have entries : LineFree (String.join ((serde.iterate
      (record config now level message context fields)).map fun entry =>
        if entry.1 ∈ frontKeys then "" else " " ++ entry.1 ++ "=" ++ valueText serde entry.2)) ↔
      ∀ key ∈ (callerFields context fields).keys, LineFree key := by
    rw [lineFree_join, List.forall_mem_map]
    constructor
    · intro written key caller
      have listed := perm.mem_iff.mpr (mem_record_keys.mpr (.inl caller))
      obtain ⟨entry, member, rfl⟩ := List.mem_map.mp listed
      have free := written entry member
      split at free
      case isTrue front =>
        have framework : entry.1 ∈ frontKeys ++ (traceFields context).map Prod.fst :=
          List.mem_append_left _ front
        exact frameworkKeys_lineFree framework
      case isFalse =>
        simp only [lineFree_append] at free
        exact free.1.1.2
    · intro caller entry member
      split
      case isTrue => decide
      case isFalse =>
        have key : LineFree entry.1 := by
          have listed := perm.mem_iff.mp (List.mem_map_of_mem member)
          rcases mem_record_keys.mp listed with own | framework
          · exact caller entry.1 own
          · exact frameworkKeys_lineFree framework
        simp only [lineFree_append, key, valueText_lineFree, and_true]
        decide
  have severity : LineFree level.asStr := by
    cases level <;> decide
  have space : LineFree " " := by decide
  have colon : LineFree ": " := by decide
  rw [encodePlain_record]
  simp only [lineFree_append, timestamp_lineFree, severity, space, colon, true_and, and_true,
    entries, and_assoc]

/-! ## One line -/

theorem oneLine_iff {text : String} : OneLine (utf8 text ++ [10]) ↔ LineFree text := by
  have byte : UInt8.ofNat '\n'.toNat ∈ utf8 text ↔ '\n' ∈ text.toList := mem_utf8_iff (by decide)
  have ten : UInt8.ofNat '\n'.toNat = 10 := rfl
  rw [LineFree, ← byte, ten]
  constructor
  · intro one
    obtain ⟨front, same, free⟩ := one
    rw [(List.append_inj' same rfl).1]
    exact free
  · intro free
    exact ⟨utf8 text, rfl, free⟩

theorem plainFree_iff : PlainFree config message context fields ↔
    LineFree config.serviceName ∧ LineFree (truncate message config.maxContentLength) ∧
      ∀ key ∈ (callerFields context fields).keys, LineFree key := by
  have keys : (∀ key ∈ (callerFields context fields).keys, LineFree key) ↔
      (∀ given, context = some given → ∀ key ∈ given.fields, LineFree key) ∧
        ∀ field ∈ fields, LineFree field.key := by
    have split : (callerFields context fields).keys =
        (contextFields context).map Prod.fst ++ fields.map LogField.key := by
      simp [callerFields, Map.keys, Function.comp_def]
    have own : (∀ key ∈ fields.map LogField.key, LineFree key) ↔
        ∀ field ∈ fields, LineFree field.key := List.forall_mem_map
    rw [split, List.forall_mem_append, own]
    refine and_congr_left fun _ => ?_
    cases context with
    | none =>
        refine iff_of_true ?_ ?_
        · intro key member
          cases member
        · intro given none
          cases none
    | some given =>
        have listed {key : String} :
            key ∈ (contextFields (some given)).map Prod.fst ↔ key ∈ given.fields := by
          rw [contextFields, ExtTreeMap.map_fst_toList_eq_keys, ExtTreeMap.mem_keys]
        constructor
        · intro free other same key member
          cases same
          exact free key (listed.mpr member)
        · intro free key member
          exact free given rfl key (listed.mp member)
  rw [keys]
  constructor
  · intro free
    exact ⟨free.service, free.message, free.context, free.fields⟩
  · intro free
    exact ⟨free.1, free.2.1, free.2.2.1, free.2.2.2⟩

end Record

/-- A record is one line, and has the framework's values in JSON, exactly if the plain encoding is
given no line feed that it writes as it is. -/
theorem oneRecord_iff (serde : SerdeJson) (config : LogConfig) (now : Duration) (level : LogLevel)
    (message : String) (context : Option LogContext) (fields : List LogField) :
    OneRecord serde config now level message context fields ↔
      (config.enabled level = true → config.encoding = .plain →
        PlainFree config message context fields) := by
  rw [OneRecord, logWithContext]
  by_cases enabled : config.enabled level = true
  case neg =>
    rw [if_neg enabled]
    refine iff_of_true ?_ fun passes => (enabled passes).elim
    intro bytes none
    cases none
  case pos =>
    have plain : LineFree (encodePlain serde (record config now level message context fields)) ↔
        _ := encodePlain_lineFree
    rw [if_pos enabled, plainFree_iff, ← plain]
    simp only [enabled, true_implies, Option.some.injEq]
    cases encoding : config.encoding with
    | json =>
        refine iff_of_true ?_ ?_
        · intro bytes same
          subst same
          exact ⟨oneLine_iff.mpr (valueText_lineFree serde _), fun _ => toVec_authentic⟩
        · intro plain
          cases plain
    | plain =>
        constructor
        · intro one _
          exact oneLine_iff.mp (one _ rfl).1
        · intro free bytes same
          subst same
          refine ⟨oneLine_iff.mpr (free rfl), ?_⟩
          intro json
          cases json

/-! ## A forged record -/

/-- Strings as `quote` writes them, and maps in the order of insertion. -/
def byInsertion : SerdeJson where
  string := quote
  writes := quote_writes
  iterate := id
  perm := List.Perm.refl

def plainConfig : LogConfig where
  serviceName := "users"
  level := .info
  encoding := .plain
  maxContentLength := none

def epoch : Duration where
  seconds := 0
  subsecMillis := 0

/-- What is logged at the epoch, without context and fields. -/
def plainBytes (level : LogLevel) (message : String) : Option Bytes :=
  logWithContext byInsertion plainConfig epoch level message none []

/-- A message with a line feed is not one line, and its bytes are those of two records. -/
theorem record_forged :
    ¬ OneRecord byInsertion plainConfig epoch .info
        "a\n1970-01-01T00:00:00.000Z error users: b" none [] ∧
      plainBytes .info "a\n1970-01-01T00:00:00.000Z error users: b" =
        (do return (← plainBytes .info "a") ++ (← plainBytes .error "b")) := by
  constructor
  · intro one
    have line := (one _ rfl).1
    have free := oneLine_iff.mp line
    revert free
    decide +kernel
  · decide +kernel

end RustZero.LogRecords
