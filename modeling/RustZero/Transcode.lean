import Mathlib
import RustZero.Lib.Checks
import RustZero.Lib.UnstableSort
import RustZero.Hash
import RustZero.Gateway
import RustZero.RpcDiscovery

/-!
# Bindings of the transcoder

`gateway/src/transcode.rs`: path templates, how they match a path and what they capture, and
the order in which the transcoder tries them.  A descriptor is what the transcoder reads of
it.

The order is by one number, the length of the literal segments together.  A template that has
a literal where another has a variable, and agrees with it elsewhere, has the larger number.
-/

namespace RustZero.Transcode

open Std Lib Hash Gateway Rpc

/-! ## Bindings -/

inductive HttpVerb where
  | get
  | put
  | post
  | delete
  | patch
  deriving DecidableEq, Repr

def HttpVerb.matches : HttpVerb → String → Bool
  | .get, method => method == "GET"
  | .put, method => method == "PUT"
  | .post, method => method == "POST"
  | .delete, method => method == "DELETE"
  | .patch, method => method == "PATCH"

structure HttpBinding where
  verb : HttpVerb
  path : String
  rpc : String
  body : Option String
  deriving DecidableEq, Repr

/-- The kinds that a request value is parsed for. -/
inductive Kind where
  | bool
  | int32
  | sint32
  | sfixed32
  | uint32
  | fixed32
  | other
  deriving DecidableEq, Repr

structure FieldDescriptor where
  fullName : String
  name : String
  jsonName : String
  kind : Kind
  deriving DecidableEq, Repr

structure MessageDescriptor where
  fields : List FieldDescriptor
  deriving DecidableEq, Repr

structure MethodDescriptor where
  name : String
  clientStreaming : Bool
  input : MessageDescriptor
  deriving DecidableEq, Repr

structure ServiceDescriptor where
  fullName : String
  methods : List MethodDescriptor

structure Route where
  binding : HttpBinding
  method : MethodDescriptor
  deriving DecidableEq, Repr

inductive TranscodeError where
  | unknownMethod (rpc : String)
  | unsupportedClientStreaming (rpc : String)
  | invalidTemplate (path : String)
  | noRoute
  | unexpectedBody
  | invalidRequest (message : String)
  | invalidJson (message : String)
  deriving DecidableEq, Repr

/-! ## Templates -/

/-- `str::split` at a character. -/
def split (separator : Char) (text : String) : List String :=
  (text.toList.splitOn separator).map String.ofList

def validateTemplate (template : String) : Except TranscodeError Unit :=
  ensure (startsWithSlash template && (split '/' template).all fun part =>
      part.toList.contains '\x7b' == part.toList.contains '\x7d')
    (.invalidTemplate template)

def literalWeight (template : String) : Nat :=
  (((split '/' template).filter fun part => part.toList.head? != some '\x7b').map
    String.utf8ByteSize).sum

/-- Two hexadecimal digits as `u8::from_str_radix` reads them, which takes a plus sign. -/
def hexDigit (byte : UInt8) : Option UInt8 :=
  if 48 ≤ byte ∧ byte ≤ 57 then some (byte - 48)
  else if 65 ≤ byte ∧ byte ≤ 70 then some (byte - 55)
  else if 97 ≤ byte ∧ byte ≤ 102 then some (byte - 87)
  else none

def fromStrRadix (high low : UInt8) : Option UInt8 :=
  if high = 43 then hexDigit low
  else (hexDigit high).bind fun upper => (hexDigit low).map fun lower => 16 * upper + lower

/-- A byte that is not taken for an escape; a plus is a space. -/
def plainByte (byte : UInt8) : UInt8 := if byte = 43 then 32 else byte

/-- The loop of `percent_decode`; a percent sign with fewer than two bytes after it is plain. -/
def decodeBytes : List UInt8 → Except TranscodeError (List UInt8)
  | first :: high :: low :: rest =>
      if first = 37 then do
        let byte ← okOr (fromStrRadix high low) (.invalidRequest "invalid percent encoding")
        (byte :: ·) <$> decodeBytes rest
      else (plainByte first :: ·) <$> decodeBytes (high :: low :: rest)
  | first :: rest => (plainByte first :: ·) <$> decodeBytes rest
  | [] => .ok []

/-- `String::from_utf8`. -/
def fromUtf8 (bytes : List UInt8) : Option String := String.fromUTF8? ⟨bytes.toArray⟩

def percentDecode (value : String) : Except TranscodeError String := do
  let bytes ← decodeBytes (asBytes value)
  okOr (fromUtf8 bytes) (.invalidRequest "path/query value is not UTF-8")

/-- The name of a `{name}` or `{name=pattern}` segment. -/
def variableName (segment : String) : Option String :=
  match segment.toList with
  | '\x7b' :: rest =>
      if rest.getLast? = some '\x7d' then
        some (String.ofList (rest.dropLast.takeWhile (· != '=')))
      else none
  | _ => none

/-- The captures in the order of their names. -/
abbrev Captures := ExtTreeMap String String

/-- The loop of `match_template` over the segments. -/
def matchSegments : List (String × String) → Captures → Option Captures
  | [], captures => some captures
  | (expected, actual) :: rest, captures =>
      match variableName expected with
      | some name =>
          (percentDecode actual).toOption.bind fun value =>
            matchSegments rest (captures.insert name value)
      | none => if expected = actual then matchSegments rest captures else none

def matchTemplate (template path : String) : Option Captures :=
  let template := split '/' (trimSlashes template)
  let path := split '/' (trimSlashes path)
  if template.length ≠ path.length then none else matchSegments (template.zip path) ∅

/-! ## Building -/

/-- `trim_start_matches('/').replace('/', ".")`, and then the name behind the last dot. -/
def findMethod (pool : List ServiceDescriptor) (name : String) : Option MethodDescriptor := do
  let normalized := (name.toList.dropWhile (· == '/')).map fun char =>
    if char = '/' then '.' else char
  let (service, method) ← rsplitOnce (String.ofList normalized) '.'
  let descriptor ← pool.find? fun candidate => candidate.fullName == service
  descriptor.methods.find? fun candidate => candidate.name == method

def buildRoute (pool : List ServiceDescriptor) (binding : HttpBinding) :
    Except TranscodeError Route := do
  validateTemplate binding.path
  let method ← okOr (findMethod pool binding.rpc) (.unknownMethod binding.rpc)
  ensure (!method.clientStreaming) (.unsupportedClientStreaming binding.rpc)
  .ok ⟨binding, method⟩

def Route.weight (route : Route) : Nat := literalWeight route.binding.path

/-- `sort_by_key` with the reversed weight is stable. -/
def build (pool : List ServiceDescriptor) (bindings : List HttpBinding) :
    Except TranscodeError (List Route) :=
  (UnstableSort.stable Route Route.weight).sort <$> bindings.mapM (buildRoute pool)

/-- How `invoke` finds its route. -/
def findRoute (routes : List Route) (method path : String) : Option (Route × Captures) :=
  (routes.filter fun route => route.binding.verb.matches method).findSome? fun route =>
    (matchTemplate route.binding.path path).map fun captures => (route, captures)

/-! ## Specificity -/

/-- A segment of a template. -/
inductive Segment where
  | literal (text : String)
  | capture (name : String)
  deriving DecidableEq, Repr

def Segment.text : Segment → String
  | .literal text => text
  | .capture name => "\x7b" ++ name ++ "\x7d"

/-- A non-empty literal without braces, or a whole variable. -/
def Segment.Plain : Segment → Prop
  | .literal text =>
      text ≠ "" ∧ '/' ∉ text.toList ∧ '\x7b' ∉ text.toList ∧ '\x7d' ∉ text.toList
  | .capture name => '/' ∉ name.toList

def templateOf (segments : List Segment) : String :=
  String.ofList ('/' :: ['/'].intercalate (segments.map fun segment => segment.text.toList))

/-- One segment is the other, or a variable in the place of a literal. -/
def Segment.Loosens (specific loose : Segment) : Prop :=
  loose = specific ∨ ∃ text name, specific = .literal text ∧ loose = .capture name

/-- Some literals of a template, one at least, are replaced by variables. -/
structure Loosened (specific loose : List Segment) : Prop where
  segments : List.Forall₂ Segment.Loosens specific loose
  differs : specific ≠ loose

def Segment.weight : Segment → Nat
  | .literal text => text.utf8ByteSize
  | .capture _ => 0

section Weight

variable {segments specific loose : List Segment}

theorem Segment.Plain.slash {segment : Segment} (plain : segment.Plain) :
    '/' ∉ segment.text.toList := by
  cases segment with
  | literal text => exact plain.2.1
  | capture name =>
      intro member
      simp only [Segment.text, String.toList_append, List.mem_append] at member
      rcases member with (opening | inside) | closing
      · simp at opening
      · exact plain inside
      · simp at closing

theorem split_templateOf (some : segments ≠ []) (plain : ∀ segment ∈ segments, segment.Plain) :
    split '/' (templateOf segments) = "" :: segments.map Segment.text := by
  have parts : (['/'].intercalate (segments.map fun segment => segment.text.toList)).splitOn '/' =
      segments.map fun segment => segment.text.toList := by
    refine List.splitOn_intercalate '/' ?_ (by simpa using some)
    intro part member
    obtain ⟨segment, held, same⟩ := List.mem_map.mp member
    exact same ▸ (plain segment held).slash
  have leading := List.splitOn_append_cons_self (a := '/') []
    (['/'].intercalate (segments.map fun segment => segment.text.toList))
  rw [List.nil_append] at leading
  rw [split, templateOf, String.toList_ofList, leading, parts, List.splitOn_nil,
    List.singleton_append, List.map_cons, List.map_map]
  congr 1
  refine List.map_congr_left ?_
  intro segment _
  exact String.ofList_toList

theorem literalWeight_templateOf (some : segments ≠ [])
    (plain : ∀ segment ∈ segments, segment.Plain) :
    literalWeight (templateOf segments) = (segments.map Segment.weight).sum := by
  have each : ∀ segments : List Segment, (∀ segment ∈ segments, segment.Plain) →
      (((segments.map Segment.text).filter fun part => part.toList.head? != .some '\x7b').map
        String.utf8ByteSize).sum = (segments.map Segment.weight).sum := by
    intro segments plain
    induction segments with
    | nil => rfl
    | cons first rest ih =>
        obtain ⟨here, later⟩ := List.forall_mem_cons.mp plain
        rw [List.map_cons, List.map_cons, List.sum_cons, ← ih later, List.filter_cons]
        cases first with
        | literal text =>
            have plainHead : text.toList.head? ≠ .some '\x7b' := by
              intro opens
              exact here.2.2.1 (List.mem_of_mem_head? opens)
            simp [Segment.text, Segment.weight, plainHead]
        | capture name => simp [Segment.text, Segment.weight]
  rw [literalWeight, split_templateOf some plain, List.filter_cons]
  simpa using each segments plain

theorem weight_le_of_loosens (segments : List.Forall₂ Segment.Loosens specific loose) :
    (loose.map Segment.weight).sum ≤ (specific.map Segment.weight).sum := by
  induction segments with
  | nil => exact Nat.le_refl _
  | @cons first second _ _ loosens _ ih =>
      have step : second.weight ≤ first.weight := by
        rcases loosens with same | ⟨text, name, _, replaced⟩
        · rw [same]
        · rw [replaced]
          exact Nat.zero_le _
      simp only [List.map_cons, List.sum_cons]
      omega

/-- The more specific template is strictly heavier. -/
theorem weight_lt_of_loosened (plain : ∀ segment ∈ specific, segment.Plain)
    (loosened : Loosened specific loose) :
    (loose.map Segment.weight).sum < (specific.map Segment.weight).sum := by
  obtain ⟨segments, differs⟩ := loosened
  induction segments with
  | nil => exact absurd rfl differs
  | @cons first second rest rest' loosens others ih =>
      obtain ⟨here, later⟩ := List.forall_mem_cons.mp plain
      simp only [List.map_cons, List.sum_cons]
      rcases loosens with same | ⟨text, name, literal, replaced⟩
      · subst same
        have further := ih later (fun equal => differs (by rw [equal]))
        omega
      · subst literal replaced
        have below := weight_le_of_loosens others
        have positive : 0 < text.utf8ByteSize :=
          Nat.pos_of_ne_zero fun none => here.1 (String.utf8ByteSize_eq_zero_iff.mp none)
        simp only [Segment.weight]
        omega

end Weight

section Building

variable {pool : List ServiceDescriptor} {bindings : List HttpBinding} {routes : List Route}

theorem buildRoute_binding {binding : HttpBinding} {route : Route}
    (built : buildRoute pool binding = .ok route) : route.binding = binding := by
  obtain ⟨_, _, found⟩ := bind_eq_ok built
  obtain ⟨_, _, unary⟩ := bind_eq_ok found
  obtain ⟨_, _, made⟩ := bind_eq_ok unary
  cases made
  rfl

theorem exists_route_of_mapM {binding : HttpBinding}
    (built : bindings.mapM (buildRoute pool) = .ok routes) (member : binding ∈ bindings) :
    ∃ route ∈ routes, route.binding = binding := by
  induction bindings generalizing routes with
  | nil => cases member
  | cons first rest ih =>
      rw [List.mapM_cons] at built
      obtain ⟨route, here, later⟩ := bind_eq_ok built
      obtain ⟨others, further, whole⟩ := bind_eq_ok later
      cases whole
      rcases List.mem_cons.mp member with same | inRest
      · exact ⟨route, List.mem_cons_self, same ▸ buildRoute_binding here⟩
      · obtain ⟨route, listed, same⟩ := ih further inRest
        exact ⟨route, List.mem_cons_of_mem _ listed, same⟩

theorem build_sorted (built : build pool bindings = .ok routes) :
    ∃ made, bindings.mapM (buildRoute pool) = .ok made ∧
      routes = (UnstableSort.stable Route Route.weight).sort made := by
  unfold build at built
  cases made : bindings.mapM (buildRoute pool) with
  | error error =>
      rw [made] at built
      cases built
  | ok made' =>
      rw [made] at built
      cases built
      exact ⟨made', rfl, rfl⟩

/-- The route that is found is as heavy as any that matches. -/
theorem findRoute_heaviest (built : build pool bindings = .ok routes) {binding : HttpBinding}
    (bound : binding ∈ bindings) {method path : String}
    (verb : binding.verb.matches method = true)
    (hits : (matchTemplate binding.path path).isSome = true) :
    ∃ route captures, findRoute routes method path = some (route, captures) ∧
      literalWeight binding.path ≤ literalWeight route.binding.path := by
  obtain ⟨made, ok, sorted⟩ := build_sorted built
  obtain ⟨own, listed, same⟩ := exists_route_of_mapM ok bound
  have member : own ∈ routes.filter fun route => route.binding.verb.matches method := by
    rw [sorted, List.mem_filter, UnstableSort.mem_sort, same]
    exact ⟨listed, verb⟩
  have descends : (routes.filter fun route => route.binding.verb.matches method).Pairwise
      fun left right => right.weight ≤ left.weight := by
    rw [sorted]
    exact ((UnstableSort.stable Route Route.weight).descends made).filter _
  obtain ⟨captures, matched⟩ := Option.isSome_iff_exists.mp hits
  cases found : findRoute routes method path with
  | none =>
      have missed := List.findSome?_eq_none_iff.mp found own member
      rw [same, matched] at missed
      cases missed
  | some taken =>
      obtain ⟨route, own'⟩ := taken
      obtain ⟨before, first, after, split, here, misses⟩ := List.findSome?_eq_some_iff.mp found
      obtain ⟨_, _, equal⟩ := Option.map_eq_some_iff.mp here
      cases equal
      refine ⟨route, own', rfl, ?_⟩
      rw [split] at member descends
      rcases List.mem_append.mp member with earlier | later
      · have missed := misses own earlier
        rw [same, matched] at missed
        cases missed
      · rcases List.mem_cons.mp later with equal | further
        · rw [← equal, same]
        · have lower := (List.pairwise_cons.mp (List.pairwise_append.mp descends).2.1).1 own further
          rw [← same]
          exact lower

/-- A path that matches a template is not routed to one with variables for its literals. -/
theorem finds_more_specific (pool : List ServiceDescriptor) (bindings : List HttpBinding)
    (routes : List Route) (built : build pool bindings = .ok routes)
    (specific loose : List Segment) (plain : ∀ segment ∈ specific, segment.Plain)
    (plainLoose : ∀ segment ∈ loose, segment.Plain) (loosened : Loosened specific loose)
    (binding : HttpBinding) (bound : binding ∈ bindings)
    (template : binding.path = templateOf specific) (method path : String)
    (verb : binding.verb.matches method = true)
    (hits : (matchTemplate (templateOf specific) path).isSome = true) :
    ∃ route captures, findRoute routes method path = some (route, captures) ∧
      route.binding.path ≠ templateOf loose := by
  obtain ⟨route, captures, found, heavier⟩ :=
    findRoute_heaviest built bound verb (template ▸ hits)
  refine ⟨route, captures, found, ?_⟩
  intro same
  have some : specific ≠ [] := by
    intro none
    subst none
    exact loosened.differs (List.forall₂_nil_left_iff.mp loosened.segments).symm
  have someLoose : loose ≠ [] := by
    intro none
    subst none
    exact loosened.differs (List.forall₂_nil_right_iff.mp loosened.segments)
  rw [template, same, literalWeight_templateOf some plain,
    literalWeight_templateOf someLoose plainLoose] at heavier
  exact absurd (weight_lt_of_loosened plain loosened) (Nat.not_lt.mpr heavier)

end Building

def samplePool : List ServiceDescriptor := [⟨"v1.Users", [⟨"Get", false, ⟨[]⟩⟩]⟩]

def getBinding (segments : List Segment) : HttpBinding :=
  ⟨.get, templateOf segments, "/v1.Users/Get", none⟩

/-- The own user is not looked up by the identifier `me`. -/
theorem finds_more_specific_sample : ∃ route captures,
    findRoute
        [⟨getBinding [.literal "users", .literal "me"], ⟨"Get", false, ⟨[]⟩⟩⟩,
          ⟨getBinding [.literal "users", .capture "id"], ⟨"Get", false, ⟨[]⟩⟩⟩]
        "GET" "/users/me" = some (route, captures) ∧
      route.binding.path ≠ templateOf [.literal "users", .capture "id"] := by
  refine finds_more_specific samplePool
    [getBinding [.literal "users", .capture "id"], getBinding [.literal "users", .literal "me"]] _
    (by rfl) [.literal "users", .literal "me"] [.literal "users", .capture "id"] ?_ ?_
    ⟨.cons (.inl rfl) (.cons (.inr ⟨"me", "id", rfl, rfl⟩) .nil), by decide⟩
    (getBinding [.literal "users", .literal "me"]) (by simp) rfl "GET" "/users/me" rfl
    (by decide +kernel)
  · intro segment member
    rcases List.mem_pair.mp member with same | same
    · rw [same]
      exact ⟨by decide, by decide, by decide, by decide⟩
    · rw [same]
      exact ⟨by decide, by decide, by decide, by decide⟩
  · intro segment member
    rcases List.mem_pair.mp member with same | same
    · rw [same]
      exact ⟨by decide, by decide, by decide, by decide⟩
    · rw [same]
      exact (by decide : '/' ∉ "id".toList)

end RustZero.Transcode
