import Mathlib
import RustZero.Lib.Checks
import RustZero.Lib.Glob
import RustZero.Lib.Utf8
import RustZero.Redis
import RustZero.RedisSubscription

/-!
# The namespace of a Redis store

Stores share a Redis and keep to keys that begin with their `key_prefix`.  `scan_keys` and the
pattern subscriptions of `core/src/stores_redis.rs` pass the prefix to Redis as a part of a glob
pattern, and take it off the names that come back.

* `redisGlob` is the pattern language of Redis; how it reads a class is a parameter.
* `Scan` is an iteration from cursor zero back to cursor zero, and `Exact` what Redis is
  relied on for.
* Channels are those that stores publish on, so their names are texts.
-/

namespace RustZero.RedisNamespace

open Lib Redis
open RustZero.RedisSubscription (Msg subscriptionMessage withoutPrefix)

abbrev Bytes := List UInt8

/-! ## Patterns of Redis -/

/-- `*`, `?`, `[` and the backslash. -/
def globKind (byte : UInt8) : GlobKind :=
  if byte = 42 then .star
  else if byte = 63 then .any
  else if byte = 91 then .bracket
  else if byte = 92 then .escape
  else .literal

theorem globKind_eq_literal (byte : UInt8) :
    globKind byte = .literal ↔ byte ≠ 42 ∧ byte ≠ 63 ∧ byte ≠ 91 ∧ byte ≠ 92 := by
  unfold globKind
  split
  · simp_all
  · split
    · simp_all
    · split
      · simp_all
      · split <;> simp_all

/-- How what follows a `[` is read. -/
structure Classes where
  inClass : Bytes → UInt8 → Prop
  afterClass : Bytes → Bytes
  afterClass_suffix : ∀ pattern, afterClass pattern <:+ pattern
  afterClass_lt : ∀ pattern, pattern ≠ [] → (afterClass pattern).length < pattern.length

def redisGlob (classes : Classes) : Glob UInt8 where
  kind := globKind
  inClass := classes.inClass
  afterClass := classes.afterClass
  afterClass_suffix := classes.afterClass_suffix
  afterClass_lt := classes.afterClass_lt

/-! ## `scan_keys` -/

/-- `SCAN` with its `MATCH` and its `COUNT`. -/
structure ScanCommand where
  cursor : Nat
  pattern : Option String
  count : Option Nat

structure RedisScanPage where
  cursor : Nat
  items : List Bytes

/-- The pattern that is sent. -/
def scanPattern (keyPrefix : String) (pattern : Option String) : Option String :=
  (pattern.map (storeKey keyPrefix)).or
    (if keyPrefix = "" then none else some (keyPrefix ++ "*"))

/-- `append_scan_options`. -/
def scanCommand (cursor : Nat) (pattern : Option String) (count : Option Nat) :
    Except RedisStoreError ScanCommand :=
  if count = some 0 then .error (.invalidArgument "Redis scan count must be positive")
  else .ok ⟨cursor, pattern, count⟩

/-- A key without the prefix, or the key itself. -/
def logicalKey (keyPrefix : String) (key : Bytes) : Bytes :=
  if utf8 keyPrefix <+: key then key.drop (utf8 keyPrefix).length else key

/-- `RedisStore::scan_keys`, on a Redis that answers `SCAN` with a cursor and keys. -/
def scanKeys (redis : ScanCommand → Except RedisStoreError (Nat × List Bytes))
    (keyPrefix : String) (cursor : Nat) (pattern : Option String) (count : Option Nat) :
    Except RedisStoreError RedisScanPage := do
  let command ← scanCommand cursor (scanPattern keyPrefix pattern) count
  let reply ← redis command
  pure ⟨reply.1, reply.2.map (logicalKey keyPrefix)⟩

/-- A call of an iteration: its `COUNT`, and how Redis answers. -/
structure Round where
  count : Option Nat
  reply : Nat × List Bytes

def Round.keys (round : Round) : List Bytes :=
  round.reply.2

def Round.page (keyPrefix : String) (cursor : Nat) (pattern : Option String) (round : Round) :
    Except RedisStoreError RedisScanPage :=
  scanKeys (fun _ => .ok round.reply) keyPrefix cursor pattern round.count

/-- The calls from a cursor until the cursor is zero, with the pages that they return. -/
inductive Scan (keyPrefix : String) (pattern : Option String) :
    Nat → List Round → List RedisScanPage → Prop
  | last {cursor : Nat} {round : Round} {page : RedisScanPage}
      (returned : round.page keyPrefix cursor pattern = .ok page) (complete : page.cursor = 0) :
      Scan keyPrefix pattern cursor [round] [page]
  | next {cursor : Nat} {round : Round} {page : RedisScanPage} {rounds : List Round}
      {pages : List RedisScanPage} (returned : round.page keyPrefix cursor pattern = .ok page)
      (further : page.cursor ≠ 0) (rest : Scan keyPrefix pattern page.cursor rounds pages) :
      Scan keyPrefix pattern cursor (round :: rounds) (page :: pages)

/-- Over an iteration Redis returns the stored keys that match, and no others. -/
def Exact (glob : Glob UInt8) (stored : Set Bytes) (pattern : Option String)
    (rounds : List Round) : Prop :=
  ∀ key, key ∈ rounds.flatMap Round.keys ↔
    key ∈ stored ∧ ∀ text, pattern = some text → glob.Matches (utf8 text) key

/-! ## Pattern subscriptions -/

/-- The patterns that `start_subscription` subscribes to. -/
def subscriptionTopics (keyPrefix : String) (topics : List String) :
    Except RedisStoreError (List String) :=
  if topics.isEmpty || topics.any String.isEmpty then
    .error (.invalidArgument
      "Redis subscriptions require at least one non-empty channel or pattern")
  else .ok (topics.map (storeKey keyPrefix))

/-- Redis delivers a message under a pattern that its channel matches. -/
def Delivered (glob : Glob UInt8) (topics : List String) (message : Msg) : Prop :=
  ∃ topic ∈ topics, message.pattern = some topic ∧
    glob.Matches (utf8 topic) (utf8 message.channelName)

/-! ## Isolation -/

/-- A store sees its own keys and channels under their logical names, and no others. -/
structure Isolated (glob : Glob UInt8) (keyPrefix : String) : Prop where
  scanned : ∀ (stored : Set Bytes) (pattern : Option String) (rounds : List Round)
    (pages : List RedisScanPage), Scan keyPrefix pattern 0 rounds pages →
      Exact glob stored (scanPattern keyPrefix pattern) rounds →
        ∀ key, key ∈ pages.flatMap RedisScanPage.items ↔
          utf8 keyPrefix ++ key ∈ stored ∧
            ∀ text, pattern = some text → glob.Matches (utf8 text) key
  delivered : ∀ (topics sent : List String) (message : Msg),
    subscriptionTopics keyPrefix topics = .ok sent → Delivered glob sent message →
      message.channelName = storeKey keyPrefix (subscriptionMessage message keyPrefix).channel

theorem logicalKey_append (keyPrefix : String) (key : Bytes) :
    logicalKey keyPrefix (utf8 keyPrefix ++ key) = key := by
  rw [logicalKey, if_pos (List.prefix_append _ key), List.drop_left]

theorem page_eq {keyPrefix : String} {pattern : Option String} {cursor : Nat} {round : Round}
    {page : RedisScanPage} (returned : round.page keyPrefix cursor pattern = .ok page) :
    page = ⟨round.reply.1, round.keys.map (logicalKey keyPrefix)⟩ := by
  obtain ⟨command, _, further⟩ := bind_eq_ok returned
  cases further
  rfl

/-- The items of an iteration are the keys that Redis returned, without the prefix. -/
theorem scan_items {keyPrefix : String} {pattern : Option String} {cursor : Nat}
    {rounds : List Round} {pages : List RedisScanPage}
    (scan : Scan keyPrefix pattern cursor rounds pages) :
    pages.flatMap RedisScanPage.items =
      (rounds.flatMap Round.keys).map (logicalKey keyPrefix) := by
  induction scan with
  | last returned complete =>
      rw [page_eq returned]
      simp only [List.flatMap_cons, List.flatMap_nil, List.append_nil]
  | next returned further rest ih =>
      rw [List.flatMap_cons, List.flatMap_cons, ih, page_eq returned, List.map_append]

/-- An iteration of one call. -/
theorem scan_once (keyPrefix : String) (pattern : Option String) (keys : List Bytes) :
    Scan keyPrefix pattern 0 [⟨none, 0, keys⟩] [⟨0, keys.map (logicalKey keyPrefix)⟩] :=
  .last rfl rfl

theorem scanPattern_none {keyPrefix : String} (prefixed : keyPrefix ≠ "") :
    scanPattern keyPrefix none = some (keyPrefix ++ "*") :=
  if_neg prefixed

theorem utf8_star : utf8 "*" = [42] := by rfl

section

variable {classes : Classes} {keyPrefix : String}

/-- Without a pattern of the caller, the prefix with a star selects the keys of the store. -/
theorem Isolated.continues (isolated : Isolated (redisGlob classes) keyPrefix)
    (prefixed : keyPrefix ≠ "") :
    (redisGlob classes).Continues 42 (utf8 keyPrefix) (utf8 keyPrefix) := by
  have matching : ∀ key, (∀ text, scanPattern keyPrefix none = some text →
      (redisGlob classes).Matches (utf8 text) key) ↔
      (redisGlob classes).Matches (utf8 keyPrefix ++ [42]) key := by
    intro key
    rw [scanPattern_none prefixed, ← utf8_star, ← utf8_append]
    constructor
    · intro all
      exact all _ rfl
    · intro matched text same
      cases same
      exact matched
  intro key
  constructor
  · intro matched
    have exact : Exact (redisGlob classes) {key} (scanPattern keyPrefix none)
        [⟨none, 0, [key]⟩] := by
      intro other
      rw [matching]
      constructor
      · intro found
        cases List.mem_singleton.mp found
        exact ⟨rfl, matched⟩
      · intro stored
        cases Set.mem_singleton_iff.mp stored.1
        exact List.mem_singleton_self key
    have seen := isolated.scanned {key} none _ _ (scan_once keyPrefix none [key]) exact
      (logicalKey keyPrefix key)
    obtain ⟨stored, _⟩ := seen.mp (List.mem_singleton_self _)
    exact ⟨_, stored⟩
  · intro inside
    obtain ⟨logical, rfl⟩ := inside
    by_contra unmatched
    have exact : Exact (redisGlob classes) {utf8 keyPrefix ++ logical}
        (scanPattern keyPrefix none) [⟨none, 0, []⟩] := by
      intro other
      rw [matching]
      constructor
      · intro found
        cases found
      · intro stored
        cases Set.mem_singleton_iff.mp stored.1
        exact (unmatched stored.2).elim
    have seen := isolated.scanned _ none _ _ (scan_once keyPrefix none []) exact logical
    cases seen.mpr ⟨rfl, by simp⟩

/-- Behind a literal prefix a pattern selects keys of the store, by their logical names. -/
theorem scanPattern_matches (literal : (redisGlob classes).Literal (utf8 keyPrefix))
    (pattern : Option String) (found : Bytes) :
    (∀ text, scanPattern keyPrefix pattern = some text →
        (redisGlob classes).Matches (utf8 text) found) ↔
      ∃ key, found = utf8 keyPrefix ++ key ∧
        ∀ text, pattern = some text → (redisGlob classes).Matches (utf8 text) key := by
  cases pattern with
  | some pattern =>
      have sent : scanPattern keyPrefix (some pattern) = some (keyPrefix ++ pattern) := rfl
      rw [sent]
      simp only [Option.some.injEq, forall_eq', utf8_append]
      exact Glob.matches_literal_append literal
  | none =>
      by_cases empty : keyPrefix = ""
      · subst empty
        refine iff_of_true ?_ ⟨found, by rw [utf8_empty]; rfl, by simp⟩
        intro text sent
        cases sent
      · rw [scanPattern_none empty]
        simp only [Option.some.injEq, forall_eq', utf8_append, utf8_star]
        rw [Glob.matches_literal_append literal]
        constructor
        · intro matched
          obtain ⟨key, whole, _⟩ := matched
          exact ⟨key, whole, by simp⟩
        · intro matched
          obtain ⟨key, whole, _⟩ := matched
          exact ⟨key, whole, Glob.matches_last_star rfl key⟩

theorem scanned_of_literal (literal : (redisGlob classes).Literal (utf8 keyPrefix))
    {stored : Set Bytes} {pattern : Option String} {rounds : List Round}
    {pages : List RedisScanPage} (scan : Scan keyPrefix pattern 0 rounds pages)
    (exact : Exact (redisGlob classes) stored (scanPattern keyPrefix pattern) rounds)
    (key : Bytes) :
    key ∈ pages.flatMap RedisScanPage.items ↔ utf8 keyPrefix ++ key ∈ stored ∧
      ∀ text, pattern = some text → (redisGlob classes).Matches (utf8 text) key := by
  rw [scan_items scan, List.mem_map]
  constructor
  · intro seen
    obtain ⟨found, returned, rfl⟩ := seen
    obtain ⟨there, selected⟩ := (exact found).mp returned
    obtain ⟨logical, rfl, matched⟩ := (scanPattern_matches literal pattern found).mp selected
    rw [logicalKey_append]
    exact ⟨there, matched⟩
  · intro there
    refine ⟨utf8 keyPrefix ++ key, (exact _).mpr ⟨there.1, ?_⟩, logicalKey_append keyPrefix key⟩
    exact (scanPattern_matches literal pattern _).mpr ⟨key, rfl, there.2⟩

/-- The channel of a message under a pattern of the store is one of the store. -/
theorem delivered_of_literal (literal : (redisGlob classes).Literal (utf8 keyPrefix))
    {topics sent : List String} {message : Msg}
    (subscribed : subscriptionTopics keyPrefix topics = .ok sent)
    (delivered : Delivered (redisGlob classes) sent message) :
    message.channelName = storeKey keyPrefix (subscriptionMessage message keyPrefix).channel := by
  obtain ⟨topic, member, _, matched⟩ := delivered
  rw [subscriptionTopics] at subscribed
  split at subscribed <;> cases subscribed
  obtain ⟨pattern, _, rfl⟩ := List.mem_map.mp member
  rw [storeKey, utf8_append, Glob.matches_literal_append literal] at matched
  obtain ⟨rest, whole, _⟩ := matched
  obtain ⟨channel, named, _⟩ := utf8_eq_append whole
  have inside : keyPrefix.toList <+: message.channelName.toList := by
    rw [named, String.toList_append]
    exact List.prefix_append _ _
  refine String.toList_injective ?_
  rw [storeKey, String.toList_append]
  simp only [subscriptionMessage, withoutPrefix, if_pos inside, String.toList_ofList]
  exact (List.prefix_iff_eq_append.mp inside).symm

instance byte_nontrivial : Nontrivial UInt8 := ⟨0, 1, by decide⟩

/-- A namespace is isolated exactly when its prefix, as a pattern, stands for itself. -/
theorem isolated_iff (classes : Classes) (keyPrefix : String) :
    Isolated (redisGlob classes) keyPrefix ↔
      ∀ byte ∈ utf8 keyPrefix, byte ≠ 42 ∧ byte ≠ 63 ∧ byte ≠ 91 ∧ byte ≠ 92 := by
  have kinds : (redisGlob classes).Literal (utf8 keyPrefix) ↔
      ∀ byte ∈ utf8 keyPrefix, byte ≠ 42 ∧ byte ≠ 63 ∧ byte ≠ 91 ∧ byte ≠ 92 := by
    exact forall₂_congr fun byte _ => globKind_eq_literal byte
  rw [← kinds]
  constructor
  · intro isolated
    by_cases empty : keyPrefix = ""
    · intro byte member
      rw [empty, utf8_empty] at member
      cases member
    · exact (Glob.continues_self_iff rfl).mp (isolated.continues empty)
  · intro literal
    exact ⟨fun _ _ _ _ => scanned_of_literal literal, fun _ _ _ => delivered_of_literal literal⟩

end

/-! ## A prefix with a wildcard -/

/-- The members of a class up to its `]`: a backslash takes what follows it as it is, and a
`-` between two symbols makes a range. -/
def listed (byte : UInt8) : Bytes → Bool
  | [] => false
  | 92 :: escaped :: rest => escaped == byte || listed byte rest
  | 93 :: _ => false
  | low :: 45 :: high :: rest =>
      (min low high ≤ byte && byte ≤ max low high) || listed byte rest
  | symbol :: rest => symbol == byte || listed byte rest

/-- What follows the class. -/
def classEnd : Bytes → Bytes
  | [] => []
  | 92 :: _ :: rest => classEnd rest
  | 93 :: rest => rest
  | _ :: 45 :: _ :: rest => classEnd rest
  | _ :: rest => classEnd rest

theorem classEnd_suffix (pattern : Bytes) : classEnd pattern <:+ pattern := by
  fun_induction classEnd pattern with
  | case1 => exact List.suffix_rfl
  | case2 escaped rest ih => exact ih.trans ⟨[92, escaped], rfl⟩
  | case3 rest => exact List.suffix_cons 93 rest
  | case4 low high rest _ _ ih => exact ih.trans ⟨[low, 45, high], rfl⟩
  | case5 symbol rest _ _ _ ih => exact ih.trans (List.suffix_cons symbol rest)

theorem classEnd_lt {pattern : Bytes} (more : pattern ≠ []) :
    (classEnd pattern).length < pattern.length := by
  have le (rest : Bytes) : (classEnd rest).length ≤ rest.length := (classEnd_suffix rest).length_le
  fun_cases classEnd pattern with
  | case1 => exact (more rfl).elim
  | case2 escaped rest =>
      have := le rest
      simp only [List.length_cons]
      omega
  | case3 rest => exact Nat.lt_succ_self _
  | case4 low high rest =>
      have := le rest
      simp only [List.length_cons]
      omega
  | case5 symbol rest => exact Nat.lt_succ_of_le (le rest)

/-- What follows a class that may be negated. -/
def negatedEnd : Bytes → Bytes
  | 94 :: members => classEnd members
  | members => classEnd members

/-- The classes as Redis documents them: a `^` in front negates. -/
def documented : Classes where
  inClass
    | 94 :: members, byte => listed byte members = false
    | members, byte => listed byte members = true
  afterClass := negatedEnd
  afterClass_suffix := by
    intro pattern
    fun_cases negatedEnd pattern with
    | case1 members => exact (classEnd_suffix members).trans (List.suffix_cons 94 members)
    | case2 => exact classEnd_suffix pattern
  afterClass_lt := by
    intro pattern more
    fun_cases negatedEnd pattern with
    | case1 members => exact Nat.lt_succ_of_le (classEnd_suffix members).length_le
    | case2 => exact classEnd_lt more

/-- The key that another store with the prefix `app1:` keeps. -/
def foreignKey : Bytes :=
  utf8 "app1:secret"

theorem foreign_key_matches :
    (redisGlob documented).Matches (utf8 ("app?:" ++ "*")) foreignKey := by
  have pattern : utf8 ("app?:" ++ "*") = [97, 112, 112, 63, 58, 42] := by rfl
  have key : foreignKey = [97, 112, 112, 49, 58, 115, 101, 99, 114, 101, 116] := by rfl
  rw [pattern, key]
  refine .literal rfl (.literal rfl (.literal rfl (.any rfl 49 (.literal rfl ?_))))
  exact Glob.matches_last_star rfl _

/-- A scan of the store with the prefix `app?:` returns a key of the store with `app1:`, under
its whole name. -/
theorem foreign_key_scanned :
    ¬Isolated (redisGlob documented) "app?:" ∧
      ∃ rounds pages, Scan "app?:" none 0 rounds pages ∧
        Exact (redisGlob documented) {foreignKey} (scanPattern "app?:" none) rounds ∧
        pages.flatMap RedisScanPage.items = [foreignKey] ∧
        ¬utf8 "app?:" <+: foreignKey := by
  have foreign : ¬utf8 "app?:" <+: foreignKey := by
    have named : utf8 "app?:" = [97, 112, 112, 63, 58] := by rfl
    have key : foreignKey = [97, 112, 112, 49, 58, 115, 101, 99, 114, 101, 116] := by rfl
    rw [named, key]
    decide
  have prefixed : "app?:" ≠ "" := by decide
  have returned : [foreignKey].map (logicalKey "app?:") = [foreignKey] := by
    rw [List.map_cons, logicalKey, if_neg foreign, List.map_nil]
  refine ⟨?_, _, _, scan_once "app?:" none [foreignKey], ?_, ?_, foreign⟩
  · intro isolated
    exact foreign ((isolated.continues prefixed _).mp foreign_key_matches)
  · intro key
    rw [scanPattern_none prefixed]
    constructor
    · intro found
      cases List.mem_singleton.mp found
      refine ⟨rfl, ?_⟩
      intro text same
      cases same
      exact foreign_key_matches
    · intro stored
      cases Set.mem_singleton_iff.mp stored.1
      exact List.mem_singleton_self _
  · rw [List.flatMap_cons, List.flatMap_nil, List.append_nil]
    exact returned

end RustZero.RedisNamespace
