import Mathlib
import RustZero.Lib.Circle

/-!
# The consistent-hash ring

`core/src/hash.rs`.  Every node owns `replicas` points of a circle of 64-bit
hashes; a key is served by the node at the first point from its hash on.  Points
may collide, so each holds the list of its nodes in the order they were added, and
the first of them serves.

The laws of the ring hold for any hash and take it as a parameter; `hashBytes` is
the one of the source.
-/

namespace RustZero.Hash

open Std (ExtTreeMap)
open Lib

/-! ## The hash -/

/-- `str::as_bytes`. -/
def asBytes (text : String) : List UInt8 := text.toUTF8.data.toList

/-- FNV-1a, continued from `hash`. -/
def fnv (hash : UInt64) (bytes : List UInt8) : UInt64 :=
  bytes.foldl (fun hash byte => (hash ^^^ byte.toUInt64) * 0x100000001b3) hash

/-- The SplitMix64 finalizer. -/
def splitMix (hash : UInt64) : UInt64 :=
  let hash := (hash ^^^ (hash >>> 30)) * 0xbf58476d1ce4e5b9
  let hash := (hash ^^^ (hash >>> 27)) * 0x94d049bb133111eb
  hash ^^^ (hash >>> 31)

def offsetBasis : UInt64 := 0xcbf29ce484222325

def hashBytes (bytes : List UInt8) : UInt64 := splitMix (fnv offsetBasis bytes)

/-! ## The ring -/

/-- The replica count is asserted positive by `new`. -/
structure ConsistentHash where
  replicas : Nat
  nodes : Finset String
  ring : ExtTreeMap UInt64 (List String)
  replicas_pos : 0 < replicas

def ConsistentHash.new (replicas : Nat) (positive : 0 < replicas) : ConsistentHash :=
  ⟨replicas, ∅, ∅, positive⟩

section Ring

variable (hash : List UInt8 → UInt64)

/-- Where replica `replica` of `node` lies: the hash of `"{node}#{replica}"`. -/
def replicaPoint (node : String) (replica : Nat) : UInt64 :=
  hash (asBytes (node ++ "#" ++ toString replica))

/-- `ring.entry(point).or_default().push(node)`. -/
def pushNode (node : String) (ring : ExtTreeMap UInt64 (List String)) (point : UInt64) :
    ExtTreeMap UInt64 (List String) :=
  ring.insert point (ring[point]?.getD [] ++ [node])

/-- Drop `node` from a point, and the point with its last node. -/
def dropNode (node : String) (ring : ExtTreeMap UInt64 (List String)) (point : UInt64) :
    ExtTreeMap UInt64 (List String) :=
  match ring[point]? with
  | some nodes =>
      let kept := nodes.filter fun candidate => candidate ≠ node
      if kept.isEmpty then ring.erase point else ring.insert point kept
  | none => ring

def ConsistentHash.add (state : ConsistentHash) (node : String) : ConsistentHash × Bool :=
  if node ∈ state.nodes then (state, false)
  else
    ({ state with
        nodes := insert node state.nodes
        ring := (List.range state.replicas).foldl
          (fun ring replica => pushNode node ring (replicaPoint hash node replica)) state.ring },
      true)

def ConsistentHash.remove (state : ConsistentHash) (node : String) : ConsistentHash × Bool :=
  if node ∈ state.nodes then
    ({ state with
        nodes := state.nodes.erase node
        ring := (List.range state.replicas).foldl
          (fun ring replica => dropNode node ring (replicaPoint hash node replica)) state.ring },
      true)
  else (state, false)

def ConsistentHash.get (state : ConsistentHash) (key : List UInt8) : Option String :=
  (entryFrom state.ring (hash key)).bind fun entry => entry.2.head?

/-! ## One point of the ring -/

/-- The nodes at a point, in the order they serve. -/
def nodesAt (ring : ExtTreeMap UInt64 (List String)) (point : UInt64) : List String :=
  ring[point]?.getD []

/-- No point is kept without a node. -/
def Tight (ring : ExtTreeMap UInt64 (List String)) : Prop :=
  ∀ point : UInt64, ring[point]? ≠ some []

theorem Tight.ext {left right : ExtTreeMap UInt64 (List String)} (leftTight : Tight left)
    (rightTight : Tight right) (same : ∀ point, nodesAt left point = nodesAt right point) :
    left = right := by
  apply ExtTreeMap.ext_getElem?
  intro point
  have leftFull := leftTight point
  have rightFull := rightTight point
  have agree := same point
  unfold nodesAt at agree
  cases leftEq : left[point]? with
  | none =>
      cases rightEq : right[point]? with
      | none => rfl
      | some nodes =>
          rw [leftEq, rightEq] at agree
          rw [rightEq] at rightFull
          exact absurd (congrArg some agree.symm) rightFull
  | some nodes =>
      cases rightEq : right[point]? with
      | none =>
          rw [leftEq, rightEq] at agree
          rw [leftEq] at leftFull
          exact absurd (congrArg some agree) leftFull
      | some others =>
          rw [leftEq, rightEq] at agree
          exact congrArg some agree

theorem Tight.mem_iff {ring : ExtTreeMap UInt64 (List String)} (tight : Tight ring)
    {point : UInt64} : point ∈ ring ↔ nodesAt ring point ≠ [] := by
  have full := tight point
  rw [ExtTreeMap.mem_iff_isSome_getElem?, nodesAt]
  cases held : ring[point]? with
  | none => simp
  | some nodes =>
      rw [held] at full
      simpa using full

theorem nodesAt_pushNode (node : String) (ring : ExtTreeMap UInt64 (List String))
    (point other : UInt64) :
    nodesAt (pushNode node ring point) other =
      if point = other then nodesAt ring other ++ [node] else nodesAt ring other := by
  unfold nodesAt pushNode
  rw [ExtTreeMap.getElem?_insert]
  by_cases same : point = other
  · subst same
    simp
  · simp [same]

theorem Tight.pushNode {node : String} {ring : ExtTreeMap UInt64 (List String)}
    (tight : Tight ring) (point : UInt64) : Tight (pushNode node ring point) := by
  intro other
  unfold Hash.pushNode
  rw [ExtTreeMap.getElem?_insert]
  by_cases same : point = other
  · simp [same]
  · simpa [same] using tight other

/-- The two outcomes of `dropNode` at a point with nodes: the point goes with its last
node, or keeps the others. -/
theorem dropNode_cases (node : String) {ring : ExtTreeMap UInt64 (List String)}
    {point : UInt64} {nodes : List String} (held : ring[point]? = some nodes) :
    (nodes.filter (· ≠ node) = [] ∧ dropNode node ring point = ring.erase point) ∨
      (nodes.filter (· ≠ node) ≠ [] ∧
        dropNode node ring point = ring.insert point (nodes.filter (· ≠ node))) := by
  simp only [dropNode, held]
  split
  · rename_i gone
    exact Or.inl ⟨List.isEmpty_iff.mp gone, rfl⟩
  · rename_i kept
    exact Or.inr ⟨fun gone => kept (List.isEmpty_iff.mpr gone), rfl⟩

theorem dropNode_of_absent {node : String} {ring : ExtTreeMap UInt64 (List String)}
    {point : UInt64} (absent : ring[point]? = none) : dropNode node ring point = ring := by
  simp only [dropNode, absent]

theorem nodesAt_dropNode (node : String) (ring : ExtTreeMap UInt64 (List String))
    (point other : UInt64) :
    nodesAt (dropNode node ring point) other =
      if point = other then (nodesAt ring other).filter (· ≠ node) else nodesAt ring other := by
  cases held : ring[point]? with
  | none =>
      rw [dropNode_of_absent held]
      by_cases same : point = other
      · subst same
        simp [nodesAt, held]
      · rw [if_neg same]
  | some nodes =>
      rcases dropNode_cases node held with ⟨gone, dropped⟩ | ⟨_, dropped⟩
      · rw [dropped]
        by_cases same : point = other
        · subst same
          rw [if_pos rfl, nodesAt, nodesAt, held, Option.getD_some, gone]
          simp
        · simp [nodesAt, same, ExtTreeMap.getElem?_erase]
      · rw [dropped]
        by_cases same : point = other
        · subst same
          simp [nodesAt, held]
        · simp [nodesAt, same, ExtTreeMap.getElem?_insert]

theorem Tight.dropNode {node : String} {ring : ExtTreeMap UInt64 (List String)}
    (tight : Tight ring) (point : UInt64) : Tight (dropNode node ring point) := by
  intro other
  have full := tight other
  cases held : ring[point]? with
  | none => rwa [dropNode_of_absent held]
  | some nodes =>
      rcases dropNode_cases node held with ⟨_, dropped⟩ | ⟨kept, dropped⟩
      · rw [dropped]
        by_cases same : point = other
        · simp [same]
        · simpa [same, ExtTreeMap.getElem?_erase] using full
      · rw [dropped]
        by_cases same : point = other
        · subst same
          rw [ExtTreeMap.getElem?_insert_self]
          exact fun empty => kept (Option.some.inj empty)
        · simpa [same, ExtTreeMap.getElem?_insert] using full

/-! ## All points of a node -/

/-- The points of a node, one for each replica. -/
def pointsOf (replicas : Nat) (node : String) : List UInt64 :=
  (List.range replicas).map (replicaPoint hash node)

omit hash in
theorem pushNode_all (node : String) (points : List UInt64)
    {ring : ExtTreeMap UInt64 (List String)} (tight : Tight ring) :
    Tight (points.foldl (pushNode node) ring) ∧ ∀ point,
      nodesAt (points.foldl (pushNode node) ring) point =
        nodesAt ring point ++ List.replicate (points.count point) node := by
  induction points generalizing ring with
  | nil => exact ⟨tight, fun point => by simp⟩
  | cons first rest ih =>
      obtain ⟨restTight, restNodes⟩ := ih (tight.pushNode first)
      refine ⟨restTight, ?_⟩
      intro point
      rw [List.foldl_cons, restNodes, nodesAt_pushNode, List.count_cons]
      by_cases same : first = point
      · simp [same, List.replicate_succ]
      · simp [same]

omit hash in
theorem dropNode_all (node : String) (points : List UInt64)
    {ring : ExtTreeMap UInt64 (List String)} (tight : Tight ring)
    (elsewhere : ∀ point, point ∉ points → node ∉ nodesAt ring point) :
    Tight (points.foldl (dropNode node) ring) ∧ ∀ point,
      nodesAt (points.foldl (dropNode node) ring) point =
        (nodesAt ring point).filter (· ≠ node) := by
  induction points generalizing ring with
  | nil =>
      refine ⟨tight, ?_⟩
      intro point
      refine (List.filter_eq_self.mpr ?_).symm
      intro candidate member
      have other : candidate ≠ node := by
        intro same
        exact elsewhere point List.not_mem_nil (same ▸ member)
      simpa using other
  | cons first rest ih =>
      have cleared : ∀ point, point ∉ rest → node ∉ nodesAt (dropNode node ring first) point := by
        intro point outside
        rw [nodesAt_dropNode]
        by_cases same : first = point
        · simp [same]
        · rw [if_neg same]
          exact elsewhere point (by simp [Ne.symm same, outside])
      obtain ⟨restTight, restNodes⟩ := ih (tight.dropNode first) cleared
      refine ⟨restTight, ?_⟩
      intro point
      rw [List.foldl_cons, restNodes, nodesAt_dropNode]
      by_cases same : first = point
      · simp [same]
      · rw [if_neg same]

/-! ## Rings of a list of nodes -/

/-- Who shares a point when the nodes of `joined` were added in this order: each as
often as it has replicas there. -/
def sharing (replicas : Nat) (joined : List String) (point : UInt64) : List String :=
  joined.flatMap fun node => List.replicate ((pointsOf hash replicas node).count point) node

/-- The state is the ring of the nodes of `joined`, added in this order. -/
structure Represents (state : ConsistentHash) (joined : List String) : Prop where
  distinct : joined.Nodup
  nodes : state.nodes = joined.toFinset
  tight : Tight state.ring
  shares : ∀ point, nodesAt state.ring point = sharing hash state.replicas joined point

theorem Represents.mem_nodes {state : ConsistentHash} {joined : List String}
    (represents : Represents hash state joined) {node : String} :
    node ∈ state.nodes ↔ node ∈ joined := by
  rw [represents.nodes, List.mem_toFinset]

theorem represents_new (replicas : Nat) (positive : 0 < replicas) :
    Represents hash (ConsistentHash.new replicas positive) [] where
  distinct := List.nodup_nil
  nodes := rfl
  tight := by
    intro point
    simp [ConsistentHash.new]
  shares := by
    intro point
    simp [ConsistentHash.new, nodesAt, sharing]

/-- The ring is a function of the list. -/
theorem Represents.unique {left right : ConsistentHash} {joined : List String}
    (leftOf : Represents hash left joined) (rightOf : Represents hash right joined)
    (replicas : left.replicas = right.replicas) : left = right := by
  have rings : left.ring = right.ring := by
    apply leftOf.tight.ext rightOf.tight
    intro point
    rw [leftOf.shares, rightOf.shares, replicas]
  have nodes : left.nodes = right.nodes := leftOf.nodes.trans rightOf.nodes.symm
  cases left
  cases right
  simp_all

theorem mem_sharing {replicas : Nat} {joined : List String} {point : UInt64} {node : String} :
    node ∈ sharing hash replicas joined point ↔
      node ∈ joined ∧ point ∈ pointsOf hash replicas node := by
  rw [sharing, List.mem_flatMap]
  constructor
  · intro ⟨other, member, copies⟩
    obtain ⟨some, same⟩ := List.mem_replicate.mp copies
    subst same
    exact ⟨member, List.count_pos_iff.mp (Nat.pos_of_ne_zero some)⟩
  · intro ⟨member, here⟩
    exact ⟨node, member,
      List.mem_replicate.mpr ⟨Nat.pos_iff_ne_zero.mp (List.count_pos_iff.mpr here), rfl⟩⟩

theorem sharing_filter (replicas : Nat) (joined : List String) (keep : String → Bool)
    (point : UInt64) :
    sharing hash replicas (joined.filter keep) point =
      (sharing hash replicas joined point).filter keep := by
  induction joined with
  | nil => rfl
  | cons node rest ih =>
      have step : sharing hash replicas (node :: rest) point =
          List.replicate ((pointsOf hash replicas node).count point) node ++
            sharing hash replicas rest point := rfl
      rw [step, List.filter_append, ← ih, List.filter_replicate]
      by_cases kept : keep node = true
      · rw [List.filter_cons_of_pos kept, if_pos kept]
        rfl
      · rw [List.filter_cons_of_neg kept, if_neg kept]
        rfl

omit hash in
theorem filter_absent {joined : List String} {node : String} (absent : node ∉ joined) :
    joined.filter (· ≠ node) = joined := by
  refine List.filter_eq_self.mpr ?_
  intro other inside
  have different : other ≠ node := fun same => absent (same ▸ inside)
  simpa using different

omit hash in
theorem filter_append_absent {joined : List String} {node : String} (absent : node ∉ joined) :
    (joined ++ [node]).filter (· ≠ node) = joined := by
  rw [List.filter_append, filter_absent absent]
  simp

theorem Represents.add {state : ConsistentHash} {joined : List String}
    (represents : Represents hash state joined) {node : String} (absent : node ∉ joined) :
    Represents hash (state.add hash node).1 (joined ++ [node]) := by
  have missing : node ∉ state.nodes := fun member => absent (represents.mem_nodes.mp member)
  rw [ConsistentHash.add, if_neg missing]
  have loop := pushNode_all node (pointsOf hash state.replicas node) represents.tight
  rw [pointsOf, List.foldl_map] at loop
  refine ⟨?_, ?_, loop.1, ?_⟩
  · exact List.nodup_append.mpr ⟨represents.distinct, List.nodup_singleton node, by
      intro first member second single
      rw [List.mem_singleton] at single
      exact fun same => absent (single ▸ same ▸ member)⟩
  · ext other
    simp [represents.nodes]
  · intro point
    rw [loop.2 point, represents.shares, sharing, sharing, List.flatMap_append]
    simp [pointsOf]

theorem Represents.remove {state : ConsistentHash} {joined : List String}
    (represents : Represents hash state joined) (node : String) :
    Represents hash (state.remove hash node).1 (joined.filter (· ≠ node)) := by
  by_cases member : node ∈ state.nodes
  · rw [ConsistentHash.remove, if_pos member]
    have loop := dropNode_all node (pointsOf hash state.replicas node) represents.tight (by
      intro point outside shared
      rw [represents.shares, mem_sharing] at shared
      exact outside shared.2)
    rw [pointsOf, List.foldl_map] at loop
    refine ⟨represents.distinct.filter _, ?_, loop.1, ?_⟩
    · ext other
      simp [represents.nodes, and_comm]
    · intro point
      rw [loop.2 point, represents.shares, sharing_filter]
  · rw [ConsistentHash.remove, if_neg member]
    rwa [filter_absent fun inside => member (represents.mem_nodes.mpr inside)]

/-! ## Lookups -/

/-- `point` serves `key`: the first point from the key's hash on that a member holds. -/
def Serves (replicas : Nat) (members : Finset String) (key : List UInt8) (point : UInt64) :
    Prop :=
  NextOnCircle (fun other => ∃ node ∈ members, other ∈ pointsOf hash replicas node)
    (hash key) point

theorem sharing_ne_nil {replicas : Nat} {joined : List String} {point : UInt64} :
    sharing hash replicas joined point ≠ [] ↔
      ∃ node ∈ joined, point ∈ pointsOf hash replicas node := by
  constructor
  · intro full
    obtain ⟨node, member⟩ := List.exists_mem_of_ne_nil _ full
    exact ⟨node, (mem_sharing hash).mp member⟩
  · intro ⟨node, holds⟩
    exact List.ne_nil_of_mem ((mem_sharing hash).mpr holds)

theorem Represents.mem_ring {state : ConsistentHash} {joined : List String}
    (represents : Represents hash state joined) {point : UInt64} :
    point ∈ state.ring ↔ ∃ node ∈ state.nodes, point ∈ pointsOf hash state.replicas node := by
  rw [represents.tight.mem_iff, represents.shares, sharing_ne_nil]
  simp only [represents.mem_nodes]

/-- A lookup returns the first node at the point that serves the key. -/
theorem Represents.get_eq_some {state : ConsistentHash} {joined : List String}
    (represents : Represents hash state joined) {key : List UInt8} {node : String} :
    state.get hash key = some node ↔
      ∃ point, Serves hash state.replicas state.nodes key point ∧
        (sharing hash state.replicas joined point).head? = some node := by
  have serves : ∀ point,
      NextOnCircle (· ∈ state.ring) (hash key) point ↔
        Serves hash state.replicas state.nodes key point := by
    intro point
    unfold Serves
    simp only [represents.mem_ring]
  rw [ConsistentHash.get, Option.bind_eq_some_iff]
  constructor
  · intro ⟨entry, found, first⟩
    obtain ⟨point, nodes⟩ := entry
    obtain ⟨next, held⟩ := entryFrom_eq_some.mp found
    refine ⟨point, (serves point).mp next, ?_⟩
    rw [← represents.shares, nodesAt, held]
    exact first
  · intro ⟨point, next, first⟩
    have upNext := (serves point).mpr next
    have here : point ∈ state.ring := upNext.1
    have held : state.ring[point]? = some state.ring[point] := getElem?_pos state.ring point here
    refine ⟨(point, state.ring[point]), entryFrom_eq_some.mpr ⟨upNext, held⟩, ?_⟩
    rw [← represents.shares, nodesAt, held] at first
    exact first

theorem pointsOf_ne_nil {replicas : Nat} (positive : 0 < replicas) (node : String) :
    ∃ point, point ∈ pointsOf hash replicas node :=
  ⟨replicaPoint hash node 0, List.mem_map.mpr ⟨0, List.mem_range.mpr positive, rfl⟩⟩

theorem Represents.get_mem {state : ConsistentHash} {joined : List String}
    (represents : Represents hash state joined) {key : List UInt8} {node : String}
    (found : state.get hash key = some node) : node ∈ joined := by
  obtain ⟨point, _, first⟩ := (represents.get_eq_some).mp found
  exact ((mem_sharing hash).mp (List.mem_of_head? first)).1

theorem Represents.get_eq_none {state : ConsistentHash} {joined : List String}
    (represents : Represents hash state joined) {key : List UInt8} :
    state.get hash key = none ↔ joined = [] := by
  constructor
  · intro missing
    rw [ConsistentHash.get, Option.bind_eq_none_iff] at missing
    cases found : entryFrom state.ring (hash key) with
    | none =>
        have empty := entryFrom_eq_none.mp found
        refine List.eq_nil_iff_forall_not_mem.mpr ?_
        intro node member
        obtain ⟨point, here⟩ := pointsOf_ne_nil hash state.replicas_pos node
        exact empty point
          (represents.mem_ring.mpr ⟨node, represents.mem_nodes.mpr member, here⟩)
    | some entry =>
        have noNodes := List.head?_eq_none_iff.mp (missing entry found)
        have held := (nextOnCircle_of_entryFrom found).2
        rw [noNodes] at held
        exact absurd held (represents.tight entry.1)
  · intro empty
    cases found : state.get hash key with
    | none => rfl
    | some node =>
        have member := represents.get_mem hash found
        rw [empty] at member
        cases member

/-- Taking other nodes away keeps the lookups that hit a remaining node. -/
theorem Represents.get_of_kept {state rest : ConsistentHash} {joined : List String}
    {keep : String → Bool} (represents : Represents hash state joined)
    (restOf : Represents hash rest (joined.filter keep)) (replicas : rest.replicas = state.replicas)
    {key : List UInt8} {node : String} (kept : keep node = true)
    (found : state.get hash key = some node) : rest.get hash key = some node := by
  obtain ⟨point, next, first⟩ := represents.get_eq_some.mp found
  have member := (mem_sharing hash).mp (List.mem_of_head? first)
  refine restOf.get_eq_some.mpr ⟨point, ?_, ?_⟩
  · rw [replicas]
    have stays := restOf.mem_nodes.mpr (List.mem_filter.mpr ⟨member.1, kept⟩)
    refine next.subset ?_ ⟨node, stays, member.2⟩
    intro other ⟨holder, inside, here⟩
    have held := List.mem_of_mem_filter (restOf.mem_nodes.mp inside)
    exact ⟨holder, represents.mem_nodes.mpr held, here⟩
  · rw [replicas, sharing_filter]
    cases shared : sharing hash state.replicas joined point with
    | nil =>
        rw [shared] at first
        cases first
    | cons head tail =>
        rw [shared, List.head?_cons, Option.some.injEq] at first
        rw [first, List.filter_cons_of_pos kept, List.head?_cons]

/-! ## Histories -/

inductive Call where
  | add (node : String)
  | remove (node : String)
  deriving DecidableEq, Repr

def ConsistentHash.call (state : ConsistentHash) : Call → ConsistentHash
  | .add node => (state.add hash node).1
  | .remove node => (state.remove hash node).1

def ConsistentHash.run (state : ConsistentHash) (calls : List Call) : ConsistentHash :=
  calls.foldl (ConsistentHash.call hash) state

def memberCall (members : Finset String) : Call → Finset String
  | .add node => insert node members
  | .remove node => members.erase node

/-- The nodes a history leaves present. -/
def membersAfter (calls : List Call) : Finset String :=
  calls.foldl memberCall ∅

/-- One call on the list of present nodes in the order they joined.  Adding a present
node does not move it. -/
def joinCall (joined : List String) : Call → List String
  | .add node => if node ∈ joined then joined else joined ++ [node]
  | .remove node => joined.filter (· ≠ node)

/-- The nodes a history leaves present, in the order of the addition that made each
present. -/
def joinedAfter (calls : List Call) : List String :=
  calls.foldl joinCall []

theorem Represents.call {state : ConsistentHash} {joined : List String}
    (represents : Represents hash state joined) (call : Call) :
    Represents hash (state.call hash call) (joinCall joined call) := by
  cases call with
  | add node =>
      rw [joinCall, ConsistentHash.call]
      by_cases member : node ∈ joined
      · rw [if_pos member, ConsistentHash.add, if_pos (represents.mem_nodes.mpr member)]
        exact represents
      · rw [if_neg member]
        exact represents.add hash member
  | remove node => exact represents.remove hash node

theorem Represents.run {state : ConsistentHash} {joined : List String}
    (represents : Represents hash state joined) (calls : List Call) :
    Represents hash (state.run hash calls) (calls.foldl joinCall joined) := by
  induction calls generalizing state joined with
  | nil => exact represents
  | cons call rest ih => exact ih (represents.call hash call)

theorem replicas_add (state : ConsistentHash) (node : String) :
    (state.add hash node).1.replicas = state.replicas := by
  unfold ConsistentHash.add
  split <;> rfl

theorem replicas_remove (state : ConsistentHash) (node : String) :
    (state.remove hash node).1.replicas = state.replicas := by
  unfold ConsistentHash.remove
  split <;> rfl

theorem replicas_run (state : ConsistentHash) (calls : List Call) :
    (state.run hash calls).replicas = state.replicas := by
  induction calls generalizing state with
  | nil => rfl
  | cons call rest ih =>
      refine (ih (state.call hash call)).trans ?_
      cases call with
      | add node => exact replicas_add hash state node
      | remove node => exact replicas_remove hash state node

omit hash in
theorem mem_joinCall {joined : List String} {members : Finset String}
    (same : ∀ node, node ∈ joined ↔ node ∈ members) (call : Call) (node : String) :
    node ∈ joinCall joined call ↔ node ∈ memberCall members call := by
  cases call with
  | add added =>
      rw [joinCall, memberCall, Finset.mem_insert]
      by_cases present : added ∈ joined
      · rw [if_pos present, same]
        constructor
        · exact Or.inr
        · intro either
          rcases either with equal | member
          · rw [equal]
            exact (same added).mp present
          · exact member
      · rw [if_neg present]
        simp [same, or_comm]
  | remove removed => simp [joinCall, memberCall, same, and_comm]

omit hash in
theorem mem_joined_of_run (calls : List Call) {joined : List String} {members : Finset String}
    (same : ∀ node, node ∈ joined ↔ node ∈ members) (node : String) :
    node ∈ calls.foldl joinCall joined ↔ node ∈ calls.foldl memberCall members := by
  induction calls generalizing joined members with
  | nil => exact same node
  | cons call rest ih => exact ih (mem_joinCall same call)

omit hash in
theorem mem_joinedAfter (calls : List Call) (node : String) :
    node ∈ joinedAfter calls ↔ node ∈ membersAfter calls :=
  mem_joined_of_run calls (by simp) node

theorem represents_run (replicas : Nat) (positive : 0 < replicas) (calls : List Call) :
    Represents hash ((ConsistentHash.new replicas positive).run hash calls)
      (joinedAfter calls) :=
  (represents_new hash replicas positive).run hash calls

theorem nodes_run (replicas : Nat) (positive : 0 < replicas) (calls : List Call) :
    ((ConsistentHash.new replicas positive).run hash calls).nodes = membersAfter calls := by
  ext node
  rw [(represents_run hash replicas positive calls).mem_nodes, mem_joinedAfter]

/-! ## The laws -/

/-- What the ring is for: `members` hold their replicas' points and nothing else does,
and membership changes move no key they do not have to. -/
structure RingLaws (replicas : Nat) (state : ConsistentHash) (members : Finset String) : Prop where
  nodes : state.nodes = members
  held : ∀ point node, (nodesAt state.ring point).count node =
    if node ∈ members then (pointsOf hash replicas node).count point else 0
  noEmptyPoint : ∀ point : UInt64, state.ring[point]? ≠ some []
  found : ∀ key, (state.get hash key).isSome ↔ members.Nonempty
  current : ∀ key node, state.get hash key = some node → node ∈ members
  added : ∀ node key, (state.add hash node).1.get hash key = state.get hash key ∨
    (state.add hash node).1.get hash key = some node
  removed : ∀ node key, state.get hash key ≠ some node →
    (state.remove hash node).1.get hash key = state.get hash key
  restored : ∀ node, node ∉ members → ((state.add hash node).1.remove hash node).1 = state

theorem count_sharing (replicas : Nat) {joined : List String} (distinct : joined.Nodup)
    (point : UInt64) (node : String) :
    (sharing hash replicas joined point).count node =
      if node ∈ joined then (pointsOf hash replicas node).count point else 0 := by
  induction joined with
  | nil => simp [sharing]
  | cons first rest ih =>
      obtain ⟨fresh, restDistinct⟩ := List.nodup_cons.mp distinct
      have step : sharing hash replicas (first :: rest) point =
          List.replicate ((pointsOf hash replicas first).count point) first ++
            sharing hash replicas rest point := rfl
      rw [step, List.count_append, ih restDistinct, List.count_replicate]
      by_cases same : first = node
      · subst same
        simp [fresh]
      · have different : node ≠ first := Ne.symm same
        simp [same, different]

theorem Represents.add_get {state : ConsistentHash} {joined : List String}
    (represents : Represents hash state joined) (node : String) (key : List UInt8) :
    (state.add hash node).1.get hash key = state.get hash key ∨
      (state.add hash node).1.get hash key = some node := by
  by_cases member : node ∈ joined
  · rw [ConsistentHash.add, if_pos (represents.mem_nodes.mpr member)]
    exact Or.inl rfl
  · have grown := represents.add hash member
    cases found : (state.add hash node).1.get hash key with
    | none => exact absurd (grown.get_eq_none.mp found) (by simp)
    | some winner =>
        by_cases new : winner = node
        · exact Or.inr (congrArg some new)
        · have old : Represents hash state ((joined ++ [node]).filter (· ≠ node)) := by
            rwa [filter_append_absent member]
          have kept := grown.get_of_kept hash old (replicas_add hash state node).symm
            (by simpa using new) found
          exact Or.inl kept.symm

theorem Represents.remove_get {state : ConsistentHash} {joined : List String}
    (represents : Represents hash state joined) {node : String} {key : List UInt8}
    (other : state.get hash key ≠ some node) :
    (state.remove hash node).1.get hash key = state.get hash key := by
  have shrunk := represents.remove hash node
  cases found : state.get hash key with
  | none =>
      rw [shrunk.get_eq_none, represents.get_eq_none.mp found]
      rfl
  | some winner =>
      have different : winner ≠ node := fun same => other (found.trans (congrArg some same))
      exact represents.get_of_kept hash shrunk (replicas_remove hash state node)
        (by simpa using different) found

theorem Represents.add_remove {state : ConsistentHash} {joined : List String}
    (represents : Represents hash state joined) {node : String} (absent : node ∉ joined) :
    ((state.add hash node).1.remove hash node).1 = state := by
  have back := (represents.add hash absent).remove hash node
  rw [filter_append_absent absent] at back
  exact back.unique hash represents ((replicas_remove hash _ node).trans (replicas_add hash _ node))

theorem ring_laws (replicas : Nat) (positive : 0 < replicas) (calls : List Call) :
    RingLaws hash replicas ((ConsistentHash.new replicas positive).run hash calls)
      (membersAfter calls) := by
  have represents := represents_run hash replicas positive calls
  have kept : ((ConsistentHash.new replicas positive).run hash calls).replicas = replicas :=
    replicas_run hash _ calls
  refine ⟨?_, ?_, represents.tight, ?_, ?_, represents.add_get hash, ?_, ?_⟩
  · exact nodes_run hash replicas positive calls
  · intro point node
    rw [represents.shares, count_sharing hash _ represents.distinct, kept]
    simp only [mem_joinedAfter]
  · intro key
    rw [Option.isSome_iff_ne_none, ne_eq, represents.get_eq_none]
    constructor
    · intro full
      obtain ⟨node, member⟩ := List.exists_mem_of_ne_nil _ full
      exact ⟨node, (mem_joinedAfter calls node).mp member⟩
    · intro ⟨node, member⟩
      exact List.ne_nil_of_mem ((mem_joinedAfter calls node).mpr member)
  · intro key node found
    exact (mem_joinedAfter calls node).mp (represents.get_mem hash found)
  · intro node key other
    exact represents.remove_get hash other
  · intro node absent
    exact represents.add_remove hash fun member => absent ((mem_joinedAfter calls node).mp member)

omit hash in
theorem ring_laws_after_removal :
    RingLaws hashBytes 2
      ((ConsistentHash.new 2 two_pos).run hashBytes [.add "a", .add "b", .remove "a"]) {"b"} := by
  have members : membersAfter [.add "a", .add "b", .remove "a"] = {"b"} := by decide
  rw [← members]
  exact ring_laws hashBytes 2 two_pos [.add "a", .add "b", .remove "a"]

/-! ## Two histories of one membership -/

/-- Of the nodes a history leaves at a point, the one that joined first. -/
def firstJoined (replicas : Nat) (calls : List Call) (point : UInt64) : Option String :=
  (joinedAfter calls).find? fun node => point ∈ pointsOf hash replicas node

theorem head_sharing (replicas : Nat) (joined : List String) (point : UInt64) :
    (sharing hash replicas joined point).head? =
      joined.find? fun node => point ∈ pointsOf hash replicas node := by
  induction joined with
  | nil => rfl
  | cons first rest ih =>
      have step : sharing hash replicas (first :: rest) point =
          List.replicate ((pointsOf hash replicas first).count point) first ++
            sharing hash replicas rest point := rfl
      by_cases here : point ∈ pointsOf hash replicas first
      · have copies : (pointsOf hash replicas first).count point ≠ 0 :=
          Nat.pos_iff_ne_zero.mp (List.count_pos_iff.mpr here)
        rw [step, List.find?_cons_of_pos (by simpa using here), List.head?_append,
          List.head?_replicate, if_neg copies]
        rfl
      · rw [step, List.find?_cons_of_neg (by simpa using here), List.count_eq_zero.mpr here, ← ih]
        rfl

/-- A key is served by the member that joined first among those at its point. -/
theorem get_of_serves (replicas : Nat) (positive : 0 < replicas) (calls : List Call)
    {key : List UInt8} {point : UInt64}
    (serves : Serves hash replicas (membersAfter calls) key point) :
    ((ConsistentHash.new replicas positive).run hash calls).get hash key =
      firstJoined hash replicas calls point := by
  have represents := represents_run hash replicas positive calls
  have kept : ((ConsistentHash.new replicas positive).run hash calls).replicas = replicas :=
    replicas_run hash _ calls
  have members := nodes_run hash replicas positive calls
  obtain ⟨holder, member, here⟩ := serves.1
  have full : sharing hash replicas (joinedAfter calls) point ≠ [] :=
    (sharing_ne_nil hash).mpr ⟨holder, (mem_joinedAfter calls holder).mpr member, here⟩
  obtain ⟨node, others, shared⟩ := List.exists_cons_of_ne_nil full
  have first : (sharing hash replicas (joinedAfter calls) point).head? = some node := by
    rw [shared, List.head?_cons]
  rw [firstJoined, ← head_sharing, first]
  exact represents.get_eq_some.mpr ⟨point, by rwa [kept, members], by rwa [kept]⟩

theorem get_eq_none_iff (replicas : Nat) (positive : 0 < replicas) (calls : List Call)
    (key : List UInt8) :
    ((ConsistentHash.new replicas positive).run hash calls).get hash key = none ↔
      membersAfter calls = ∅ := by
  rw [(represents_run hash replicas positive calls).get_eq_none, Finset.eq_empty_iff_forall_notMem,
    List.eq_nil_iff_forall_not_mem]
  simp only [mem_joinedAfter]

theorem exists_serves (replicas : Nat) (positive : 0 < replicas) (calls : List Call)
    (key : List UInt8) (present : membersAfter calls ≠ ∅) :
    ∃ point, Serves hash replicas (membersAfter calls) key point := by
  have represents := represents_run hash replicas positive calls
  have kept : ((ConsistentHash.new replicas positive).run hash calls).replicas = replicas :=
    replicas_run hash _ calls
  have members := nodes_run hash replicas positive calls
  cases found : ((ConsistentHash.new replicas positive).run hash calls).get hash key with
  | none => exact absurd ((get_eq_none_iff hash replicas positive calls key).mp found) present
  | some node =>
      obtain ⟨point, serves, _⟩ := represents.get_eq_some.mp found
      rw [kept, members] at serves
      exact ⟨point, serves⟩

/-- Where no two members share the point, all orders of joining serve the same node. -/
theorem firstJoined_unshared (replicas : Nat) {first second : List Call}
    (same : membersAfter first = membersAfter second) {point : UInt64}
    (unshared : ∀ left ∈ membersAfter first, ∀ right ∈ membersAfter first,
      point ∈ pointsOf hash replicas left → point ∈ pointsOf hash replicas right → left = right) :
    firstJoined hash replicas first point = firstJoined hash replicas second point := by
  unfold firstJoined
  cases found : (joinedAfter first).find? fun node => point ∈ pointsOf hash replicas node with
  | none =>
      symm
      rw [List.find?_eq_none] at found ⊢
      intro node member
      have inFirst : node ∈ joinedAfter first := by
        rw [mem_joinedAfter, same, ← mem_joinedAfter]
        exact member
      exact found node inFirst
  | some left =>
      have leftIn := (mem_joinedAfter first left).mp (List.mem_of_find?_eq_some found)
      have leftHere : point ∈ pointsOf hash replicas left := by
        simpa using List.find?_some found
      cases other : (joinedAfter second).find? fun node => point ∈ pointsOf hash replicas node with
      | none =>
          have inSecond : left ∈ joinedAfter second := by
            rw [mem_joinedAfter, ← same]
            exact leftIn
          have missed := List.find?_eq_none.mp other left inSecond
          exact absurd leftHere (by simpa using missed)
      | some right =>
          have rightIn := (mem_joinedAfter second right).mp (List.mem_of_find?_eq_some other)
          have rightHere : point ∈ pointsOf hash replicas right := by
            simpa using List.find?_some other
          rw [← same] at rightIn
          rw [unshared left leftIn right rightIn leftHere rightHere]

end Ring

end RustZero.Hash
