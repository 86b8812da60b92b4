import RustZero.Lib.Lts
import RustZero.ConfigCenter

/-!
# Etcd responses and configuration watching

`core/src/etcd.rs`: what the client reads of etcd's responses, and
`EtcdClient::watch_config`, which loads a configuration key and spawns a task that
installs the values later put under the key.

The task has two ways to meet bad data.  A value that is text but does not parse
is rejected by `DynamicConfig::update`, and the task ignores the rejection; a
value that is not UTF-8 fails in `value_str`, whose error ends the task.
`config_watch_survives` says that the watch does what it is for exactly when every
value put is UTF-8.

`parse_config` is the parameter `parseConfig`, as in `ConfigCenter`.
-/

namespace RustZero.Etcd

open Lib ConfigCenter

/-! ## Responses -/

/-- The errors of the client that the modelled functions produce. -/
inductive EtcdError (ε : Type) where
  | missingConfig (key : String)
  | invalidConfig (error : ε)
  /-- `Client`, for a value that is not UTF-8. -/
  | clientUtf8
  deriving DecidableEq, Repr

inductive EventType where
  | put
  | delete
  deriving DecidableEq, Repr

structure KeyValue where
  key : List UInt8
  value : ByteArray
  deriving DecidableEq

/-- `KeyValue::value_str`. -/
def KeyValue.valueStr {ε : Type} (kv : KeyValue) : Except (EtcdError ε) String :=
  match String.fromUTF8? kv.value with
  | some text => .ok text
  | none => .error .clientUtf8

structure Event where
  eventType : EventType
  kv : Option KeyValue
  deriving DecidableEq

structure WatchResponse where
  header : Option Nat
  events : List Event

structure GetResponse where
  header : Option Nat
  kvs : List KeyValue

/-! ## One configuration -/

/-- The three cells of a `DynamicConfig`. -/
structure DynamicConfig (T : Type) where
  snapshot : ConfigSnapshot T
  generation : Nat
  updates : ConfigSnapshot T
  deriving DecidableEq, Repr

section Config

variable {T ε : Type}

def DynamicConfig.new (parseConfig : String → Except ε T) (contents : String) :
    Except ε (DynamicConfig T) :=
  (parseConfig contents).map fun value => ⟨⟨1, contents, value⟩, 1, ⟨1, contents, value⟩⟩

/-- `DynamicConfig::update` without interruption. -/
def DynamicConfig.update (parseConfig : String → Except ε T) (config : DynamicConfig T)
    (contents : String) : Except ε (ConfigSnapshot T) × DynamicConfig T :=
  match parseConfig contents with
  | .error error => (.error error, config)
  | .ok value =>
      let generation := (config.generation + 1) % 2 ^ 64
      let snapshot := ⟨generation, contents, value⟩
      (.ok snapshot, ⟨snapshot, generation, snapshot⟩)

/-- The cells of a configuration with calls running on it. -/
def cells {ι : Type} (s : System ι T ε) : DynamicConfig T :=
  ⟨s.snapshot, s.generation, s.updates⟩

/-- An accepted update is the run of its four steps with no other call between. -/
theorem update_runs {ι : Type} [DecidableEq ι] (parseConfig : String → Except ε T)
    (initial : String) (start : T) (s : System ι T ε) (call : ι) (contents : String) (value : T)
    (idle : s.calls call = .idle) (parses : parseConfig contents = .ok value) :
    ((ConfigCenter.lts ι parseConfig initial start).exec s
      [.parse call contents, .fetchAdd call, .writeSnapshot call, .sendReplace call]).map cells =
        some ((cells s).update parseConfig contents).2 := by
  simp [ConfigCenter.lts, Lts.exec, ConfigCenter.step, idle, parses, cells, DynamicConfig.update]

/-! ## The watcher -/

/-- `EtcdConfigWatcher`; `task` is the error the task ended with. -/
structure EtcdConfigWatcher (T ε : Type) where
  config : DynamicConfig T
  task : Option (EtcdError ε) := none
  deriving DecidableEq, Repr

/-- `watch_config` up to the spawn of the task, on the response for the key. -/
def watchConfig (parseConfig : String → Except ε T) (key : String) (response : GetResponse) :
    Except (EtcdError ε) (EtcdConfigWatcher T ε) :=
  match response.kvs with
  | [] => .error (.missingConfig key)
  | kv :: _ =>
      match kv.valueStr with
      | .error error => .error error
      | .ok value =>
          match DynamicConfig.new parseConfig value with
          | .error error => .error (.invalidConfig error)
          | .ok config => .ok ⟨config, none⟩

/-- The body of the loop over the events of a response. -/
def handleEvent (parseConfig : String → Except ε T) (watcher : EtcdConfigWatcher T ε)
    (event : Event) : EtcdConfigWatcher T ε :=
  match watcher.task with
  | some _ => watcher
  | none =>
      match event.eventType, event.kv with
      | .put, some kv =>
          match kv.valueStr with
          | .error error => { watcher with task := some error }
          | .ok value => { watcher with config := (watcher.config.update parseConfig value).2 }
      | _, _ => watcher

/-- The task on the events of a stream that stays open. -/
def watch (parseConfig : String → Except ε T) (watcher : EtcdConfigWatcher T ε)
    (responses : List WatchResponse) : EtcdConfigWatcher T ε :=
  responses.foldl
    (fun watcher response => response.events.foldl (handleEvent parseConfig) watcher) watcher

/-! ## The last valid value -/

/-- The contents and the value of a valid put. -/
def validPut (parseConfig : String → Except ε T) (event : Event) : Option (String × T) :=
  match event.eventType, event.kv with
  | .put, some kv =>
      match String.fromUTF8? kv.value with
      | some contents => (parseConfig contents).toOption.map fun value => (contents, value)
      | none => none
  | _, _ => none

/-- The last valid put of a sequence of events, or an initial value. -/
def lastValid (parseConfig : String → Except ε T) (initial : String × T) (events : List Event) :
    String × T :=
  (events.filterMap (validPut parseConfig)).getLastD initial

/-- What a configuration holds. -/
def DynamicConfig.held (config : DynamicConfig T) : String × T :=
  (config.snapshot.raw, config.snapshot.value)

/-- The task is active after the events and the configuration holds the last valid
value. -/
def Survives (parseConfig : String → Except ε T) (watcher : EtcdConfigWatcher T ε)
    (events : List Event) : Prop :=
  (events.foldl (handleEvent parseConfig) watcher).task = none ∧
    (events.foldl (handleEvent parseConfig) watcher).config.held =
      lastValid parseConfig watcher.config.held events

/-- The values put by an event. -/
def Event.puts (event : Event) : Option ByteArray :=
  match event.eventType with
  | .put => event.kv.map KeyValue.value
  | .delete => none

/-- Every value an event puts is text. -/
def Event.Utf8 (event : Event) : Prop :=
  ∀ value, event.puts = some value → (String.fromUTF8? value).isSome

variable {parseConfig : String → Except ε T} {watcher : EtcdConfigWatcher T ε}

/-- An event leaves an active task active if and only if its value is text. -/
theorem handleEvent_active (active : watcher.task = none) (event : Event) :
    (handleEvent parseConfig watcher event).task = none ↔ event.Utf8 := by
  obtain ⟨eventType, kv⟩ := event
  cases eventType with
  | delete => simp [handleEvent, active, Event.Utf8, Event.puts]
  | put =>
      cases kv with
      | none => simp [handleEvent, active, Event.Utf8, Event.puts]
      | some kv =>
          cases decoded : String.fromUTF8? kv.value with
          | none => simp [handleEvent, active, Event.Utf8, Event.puts, KeyValue.valueStr, decoded]
          | some contents =>
              simp [handleEvent, active, Event.Utf8, Event.puts, KeyValue.valueStr, decoded]

/-- An event replaces what the configuration holds by its valid value, if it has
one. -/
theorem handleEvent_held (active : watcher.task = none) (event : Event) :
    (handleEvent parseConfig watcher event).config.held =
      (validPut parseConfig event).getD watcher.config.held := by
  obtain ⟨eventType, kv⟩ := event
  cases eventType with
  | delete => simp [handleEvent, active, validPut]
  | put =>
      cases kv with
      | none => simp [handleEvent, active, validPut]
      | some kv =>
          cases decoded : String.fromUTF8? kv.value with
          | none => simp [handleEvent, active, validPut, KeyValue.valueStr, decoded]
          | some contents =>
              cases parsed : parseConfig contents with
              | error error =>
                  simp [handleEvent, active, validPut, KeyValue.valueStr, decoded,
                    DynamicConfig.update, parsed, Except.toOption]
              | ok value =>
                  simp [handleEvent, active, validPut, KeyValue.valueStr, decoded,
                    DynamicConfig.update, parsed, Except.toOption, DynamicConfig.held]

theorem handleEvent_stopped {error : EtcdError ε} (stopped : watcher.task = some error)
    (events : List Event) : (events.foldl (handleEvent parseConfig) watcher).task = some error := by
  induction events generalizing watcher with
  | nil => exact stopped
  | cons event rest ih =>
      refine ih ?_
      simp [handleEvent, stopped]

theorem active_iff (active : watcher.task = none) (events : List Event) :
    (events.foldl (handleEvent parseConfig) watcher).task = none ↔
      ∀ event ∈ events, event.Utf8 := by
  induction events generalizing watcher with
  | nil => simp [active]
  | cons event rest ih =>
      rw [List.foldl_cons, List.forall_mem_cons, ← handleEvent_active active event]
      cases after : (handleEvent parseConfig watcher event).task with
      | none => simp [ih after]
      | some error => simp [handleEvent_stopped after]

theorem lastValid_cons (initial : String × T) (event : Event) (rest : List Event) :
    lastValid parseConfig initial (event :: rest) =
      lastValid parseConfig ((validPut parseConfig event).getD initial) rest := by
  cases valid : validPut parseConfig event with
  | none => rw [lastValid, List.filterMap_cons_none valid, Option.getD_none, lastValid]
  | some held =>
      rw [lastValid, List.filterMap_cons_some valid, List.getLastD_cons, Option.getD_some,
        lastValid]

theorem held_eq_lastValid (active : watcher.task = none) {events : List Event}
    (text : ∀ event ∈ events, event.Utf8) :
    (events.foldl (handleEvent parseConfig) watcher).config.held =
      lastValid parseConfig watcher.config.held events := by
  induction events generalizing watcher with
  | nil => rfl
  | cons event rest ih =>
      obtain ⟨first, later⟩ := List.forall_mem_cons.mp text
      rw [List.foldl_cons, lastValid_cons, ← handleEvent_held active event]
      exact ih ((handleEvent_active active event).mpr first) later

/-- The nested loops of the task are one loop over the events. -/
theorem watch_eq_foldl (responses : List WatchResponse) :
    watch parseConfig watcher responses =
      (responses.flatMap WatchResponse.events).foldl (handleEvent parseConfig) watcher := by
  rw [watch, List.foldl_flatMap]

/-- A started watcher has processed the events of its responses, and it survives
each of them if and only if every value put is UTF-8. -/
theorem config_watch_survives (parseConfig : String → Except ε T) (key : String)
    (response : GetResponse) (watcher : EtcdConfigWatcher T ε)
    (started : watchConfig parseConfig key response = .ok watcher)
    (responses : List WatchResponse) :
    watch parseConfig watcher responses =
      (responses.flatMap WatchResponse.events).foldl (handleEvent parseConfig) watcher ∧
    ((∀ seen, seen <+: responses.flatMap WatchResponse.events →
        Survives parseConfig watcher seen) ↔
      ∀ event ∈ responses.flatMap WatchResponse.events, event.Utf8) := by
  have active : watcher.task = none := by
    unfold watchConfig at started
    repeat'
      split at started
    all_goals cases started
    rfl
  refine ⟨watch_eq_foldl responses, ?_⟩
  constructor
  · intro survives
    exact (active_iff active _).mp (survives _ (List.prefix_refl _)).1
  · intro text seen initial
    have earlier : ∀ event ∈ seen, event.Utf8 :=
      fun event member => text event (initial.subset member)
    exact ⟨(active_iff active seen).mpr earlier, held_eq_lastValid active earlier⟩

end Config

/-- Configurations that are one digit, as JSON reads them. -/
def parseDigit (contents : String) : Except Unit Nat :=
  match contents.toList with
  | [digit] => if digit.isDigit then .ok (digit.toNat - 48) else .error ()
  | _ => .error ()

/-- The watcher loads `1`, rejects `x`, ignores a deletion and installs `2`. -/
theorem config_watch_survives_rejection :
    ∃ watcher : EtcdConfigWatcher Nat Unit,
      watchConfig parseDigit "/app/config/limit" ⟨some 7, [⟨[], ⟨#[49]⟩⟩]⟩ = .ok watcher ∧
      (watch parseDigit watcher [⟨some 8, [⟨.put, some ⟨[], ⟨#[120]⟩⟩⟩]⟩,
        ⟨some 10, [⟨.delete, some ⟨[], ⟨#[]⟩⟩⟩, ⟨.put, some ⟨[], ⟨#[50]⟩⟩⟩]⟩]).task = none ∧
      (watch parseDigit watcher [⟨some 8, [⟨.put, some ⟨[], ⟨#[120]⟩⟩⟩]⟩,
        ⟨some 10, [⟨.delete, some ⟨[], ⟨#[]⟩⟩⟩, ⟨.put, some ⟨[], ⟨#[50]⟩⟩⟩]⟩]).config.held =
          ("2", 2) := by
  refine ⟨⟨⟨⟨1, "1", 1⟩, 1, ⟨1, "1", 1⟩⟩, none⟩, by decide, ?_⟩
  rcases config_watch_survives parseDigit "/app/config/limit" ⟨some 7, [⟨[], ⟨#[49]⟩⟩]⟩
    ⟨⟨⟨1, "1", 1⟩, 1, ⟨1, "1", 1⟩⟩, none⟩ (by decide)
    [⟨some 8, [⟨.put, some ⟨[], ⟨#[120]⟩⟩⟩]⟩,
      ⟨some 10, [⟨.delete, some ⟨[], ⟨#[]⟩⟩⟩, ⟨.put, some ⟨[], ⟨#[50]⟩⟩⟩]⟩] with ⟨loops, survives⟩
  have last := survives.mpr (by
    intro event member value put
    simp only [List.flatMap_cons, List.flatMap_nil, List.append_nil, List.cons_append,
      List.nil_append, List.mem_cons, List.not_mem_nil, or_false] at member
    rcases member with rfl | rfl | rfl
    · cases put
      decide
    · cases put
    · cases put
      decide) _ (List.prefix_refl _)
  rw [loops]
  refine ⟨last.1, last.2.trans ?_⟩
  decide

/-- A put that is not UTF-8 ends the task, and the valid put after it is lost. -/
theorem undecodable_put_ends_watch :
    ∃ watcher : EtcdConfigWatcher Nat Unit,
      watchConfig parseDigit "/app/config/limit" ⟨some 7, [⟨[], ⟨#[49]⟩⟩]⟩ = .ok watcher ∧
      (watch parseDigit watcher [⟨some 8, [⟨.put, some ⟨[], ⟨#[255]⟩⟩⟩]⟩]).task =
        some .clientUtf8 ∧
      (watch parseDigit watcher [⟨some 8, [⟨.put, some ⟨[], ⟨#[255]⟩⟩⟩]⟩,
        ⟨some 9, [⟨.put, some ⟨[], ⟨#[50]⟩⟩⟩]⟩]).config.held = ("1", 1) ∧
      lastValid parseDigit watcher.config.held
        [⟨.put, some ⟨[], ⟨#[255]⟩⟩⟩, ⟨.put, some ⟨[], ⟨#[50]⟩⟩⟩] = ("2", 2) :=
  ⟨⟨⟨⟨1, "1", 1⟩, 1, ⟨1, "1", 1⟩⟩, none⟩, by decide, by decide, by decide, by decide⟩

end RustZero.Etcd
