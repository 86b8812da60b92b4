import RustZero.P2c

/-!
# The accounts of the P2C balancer

What holds of the balancer of `P2c` in every interleaving.  `Story` says what a call has seen and
done when it is in a phase; `Counts` is the invariant of a node: its `Arc`, `inflight` and
`requests` count calls and returned requests, and its statistics are those of the recorded
completions.  A clone of the `Arc` is taken before `inflight` grows, so `inflight` stays below
what a `usize` holds; `requests` counts modulo 2^64.

`balancer_accounts` reads off the invariants what a pick may choose and that each request is
counted once, however it ends.
-/

namespace RustZero.P2c

open RustZero.Lib

/-! ## The events of a call -/

/-- The events of one call, oldest first. -/
def trail (history : List Entry) (call : Nat) : List Event :=
  (history.filter fun entry => entry.1 == call).map Prod.snd

section Trail

variable {history : List Entry} {call other : Nat} {events : List Event}

theorem trail_append_self (history : List Entry) (call : Nat) (events : List Event) :
    trail (history ++ events.map (call, ·)) call = trail history call ++ events := by
  have mine : (events.map (call, ·)).filter (fun entry => entry.1 == call) =
      events.map (call, ·) := by
    rw [List.filter_eq_self]
    intro entry member
    obtain ⟨event, -, rfl⟩ := List.mem_map.mp member
    exact beq_self_eq_true call
  rw [trail, List.filter_append, mine, List.map_append, List.map_map]
  exact congrArg (trail history call ++ ·) (List.map_id events)

theorem trail_append_other (distinct : other ≠ call) :
    trail (history ++ events.map (call, ·)) other = trail history other := by
  have none_ : (events.map (call, ·)).filter (fun entry => entry.1 == other) = [] := by
    rw [List.filter_eq_nil_iff]
    intro entry member
    obtain ⟨event, -, rfl⟩ := List.mem_map.mp member
    exact fun same => distinct (beq_iff_eq.mp same).symm
  rw [trail, List.filter_append, none_, List.append_nil, trail]

theorem trail_unknown (known : ∀ entry ∈ history, entry.1 < call) : trail history call = [] := by
  have none_ : history.filter (fun entry => entry.1 == call) = [] := by
    rw [List.filter_eq_nil_iff]
    intro entry member same
    exact (known entry member).ne (beq_iff_eq.mp same)
  rw [trail, none_, List.map_nil]

end Trail

/-! ## Stories -/

/-- Two nodes to compare. -/
structure Pair (nodes first second : Nat) : Prop where
  distinct : first ≠ second
  first_lt : first < nodes
  second_lt : second < nodes

/-- What a call has seen when it has selected a node: nothing if there is one node, else whether
each node of a pair is healthy. -/
inductive Selected (nodes node : Nat) : List Event → Prop
  | only (single : nodes = 1) (first : node = 0) : Selected nodes node []
  | better {first second : Nat} {firstHealthy secondHealthy : Bool} (pair : Pair nodes first second)
      (either : node = first ∨ node = second)
      (healthy : firstHealthy ≠ secondHealthy → node = if firstHealthy then first else second) :
      Selected nodes node
        [.compared first second, .read first firstHealthy, .read second secondHealthy]

/-- A call that has selected a node and gone on so far. -/
def Since (nodes node : Nat) (events later : List Event) : Prop :=
  ∃ seen, Selected nodes node seen ∧ events = seen ++ later

section Story

variable {F : Type}

/-- The events of a call in a phase. -/
def Story (nodes : Nat) : Phase F → List Event → Prop
  | .picking, events => events = []
  | .loading drawn, events => 2 ≤ nodes ∧ (∀ first ∈ drawn, first < nodes) ∧ events = []
  | .exchanging drawn _, events => 2 ≤ nodes ∧ (∀ first ∈ drawn, first < nodes) ∧ events = []
  | .checkingFirst first second, events =>
      Pair nodes first second ∧ events = [.compared first second]
  | .checkingSecond first second firstHealthy, events =>
      Pair nodes first second ∧ events = [.compared first second, .read first firstHealthy]
  | .checkingPick first second, events
  | .weighingFirst first second, events
  | .weighingSecond first second _, events =>
      Pair nodes first second ∧ ∃ healthy,
        events = [.compared first second, .read first healthy, .read second healthy]
  | .cloning node, events
  | .touching node, events
  | .counting node, events
  | .numbering node, events
  | .returning node, events => Since nodes node events []
  | .holding request, events =>
      ∃ node, request.node = some node ∧ Since nodes node events [.returned node]
  | .completing request node ending, events
  | .timing request node ending, events
  | .recording request node ending _, events =>
      request.node = none ∧ Since nodes node events [.returned node, .ended ending]
  | .releasing request node ending, events =>
      request.node = none ∧ ∃ started now, Since nodes node events
        [.returned node, .ended ending, .recorded node started now ending.success]
  | .dropping request, events =>
      request.node = none ∧ ∃ node ending started now, Since nodes node events
        [.returned node, .ended ending, .recorded node started now ending.success]
  | .gone, events =>
      ∃ node ending started now, Since nodes node events
        [.returned node, .ended ending, .recorded node started now ending.success]
  | .panicked, _ => False

variable {floats : Floats F} {nodes node : Nat} {events later out : List Event}
  {phase phase' : Phase F} {shared shared' : Shared F} {move : Move}

theorem Since.add (since : Since nodes node events later) (event : Event) :
    Since nodes node (events ++ [event]) (later ++ [event]) := by
  obtain ⟨seen, selected, rfl⟩ := since
  exact ⟨seen, selected, List.append_assoc _ _ _⟩

/-- The shift makes the second index another node of the pool. -/
theorem afterDraw_story {drawn : Option Nat} {next : BitVec 64} (several : 2 ≤ nodes)
    (within : ∀ first ∈ drawn, first < nodes) (after : afterDraw nodes drawn next = (phase', out)) :
    Story nodes phase' out := by
  cases drawn with
  | none =>
      have index : indexOf next nodes = some (next.toNat % nodes) := if_neg (by omega)
      rw [afterDraw, index] at after
      cases after
      refine ⟨several, ?_, rfl⟩
      intro first same
      rw [← Option.some.inj same]
      exact Nat.mod_lt _ (by omega)
  | some first =>
      have first_lt := within first rfl
      have index : indexOf next (nodes - 1) = some (next.toNat % (nodes - 1)) :=
        if_neg (by omega)
      have short : next.toNat % (nodes - 1) < nodes - 1 := Nat.mod_lt _ (by omega)
      rw [afterDraw, index] at after
      generalize next.toNat % (nodes - 1) = second at short after
      have second_lt : (if first ≤ second then second + 1 else second) < nodes := by
        split_ifs <;> omega
      have distinct : first ≠ (if first ≤ second then second + 1 else second) := by
        split_ifs <;> omega
      simp only [first_lt, second_lt, and_self, if_true] at after
      cases after
      exact ⟨⟨distinct, first_lt, second_lt⟩, rfl⟩

theorem leave_story {request : P2cRequest} {ending : Ending} {started now : Nat}
    (taken : request.node = none) (since : Since nodes node events
      [.returned node, .ended ending, .recorded node started now ending.success]) :
    Story nodes (leave (F := F) request ending) events := by
  cases ending with
  | completed success => exact ⟨taken, node, _, started, now, since⟩
  | dropped => exact ⟨node, _, started, now, since⟩

theorem Story.proceed (story : Story nodes phase events) (size : shared.nodes.length = nodes)
    (filled : 1 ≤ nodes) (step : Proceeds floats shared phase shared' phase' out) :
    Story nodes phase' (events ++ out) := by
  cases step with
  | single one => exact ⟨[], .only (size.symm.trans one) rfl, congrArg (· ++ []) story⟩
  | several more =>
      refine ⟨by omega, ?_, congrArg (· ++ []) story⟩
      intro first absent
      cases absent
  | exchange after =>
      obtain ⟨several, within, rfl⟩ := story
      exact afterDraw_story several within (size ▸ after)
  | checkFirst found =>
      obtain ⟨pair, rfl⟩ := story
      exact ⟨pair, rfl⟩
  | @differ first second firstHealthy node found differs =>
      obtain ⟨pair, rfl⟩ := story
      refine ⟨_, .better pair ?_ fun _ => rfl, (List.append_nil _).symm⟩
      split
      · exact .inl rfl
      · exact .inr rfl
  | agree found =>
      obtain ⟨pair, rfl⟩ := story
      exact ⟨pair, _, rfl⟩
  | force =>
      obtain ⟨pair, healthy, rfl⟩ := story
      exact ⟨_, .better pair (.inr rfl) (absurd rfl), rfl⟩
  | weighSecond either =>
      obtain ⟨pair, healthy, rfl⟩ := story
      exact ⟨_, .better pair either (absurd rfl), rfl⟩
  | hand now => exact ⟨_, rfl, story.add _⟩
  | finish ending =>
      obtain ⟨node, held, since⟩ := story
      rw [take, held]
      exact ⟨rfl, since.add _⟩
  | record => exact ⟨story.1, _, _, story.2.add _⟩
  | release =>
      obtain ⟨taken, started, now, since⟩ := story
      rw [List.append_nil]
      exact leave_story taken since
  | drop =>
      obtain ⟨taken, node, ending, started, now, since⟩ := story
      rw [List.append_nil, take, taken]
      exact ⟨node, ending, started, now, since⟩
  | _ =>
      rw [List.append_nil]
      exact story

/-- How far a call can have come: it compares two nodes and reads their health, returns the one
it selected, and records for it, once, how the request ended. -/
inductive Course (nodes : Nat) : List Event → Prop
  | begun : Course nodes []
  | comparing {first second : Nat} (pair : Pair nodes first second) :
      Course nodes [.compared first second]
  | reading {first second : Nat} (firstHealthy : Bool) (pair : Pair nodes first second) :
      Course nodes [.compared first second, .read first firstHealthy]
  | selected {node : Nat} {seen : List Event} (selected : Selected nodes node seen) :
      Course nodes seen
  | returned {node : Nat} {seen : List Event} (selected : Selected nodes node seen) :
      Course nodes (seen ++ [.returned node])
  | ended {node : Nat} {seen : List Event} (ending : Ending) (selected : Selected nodes node seen) :
      Course nodes (seen ++ [.returned node, .ended ending])
  | recorded {node : Nat} {seen : List Event} (ending : Ending) (started now : Nat)
      (selected : Selected nodes node seen) :
      Course nodes
        (seen ++ [.returned node, .ended ending, .recorded node started now ending.success])

theorem Selected.lt (selected : Selected nodes node events) : node < nodes := by
  cases selected with
  | only single first =>
      rw [single, first]
      exact Nat.one_pos
  | better pair either healthy =>
      rcases either with rfl | rfl
      · exact pair.first_lt
      · exact pair.second_lt

theorem Story.course (story : Story nodes phase events) : Course nodes events := by
  cases phase with
  | picking => exact story ▸ .begun
  | loading drawn => exact story.2.2 ▸ .begun
  | exchanging drawn current => exact story.2.2 ▸ .begun
  | checkingFirst first second => exact story.2 ▸ .comparing story.1
  | checkingSecond first second firstHealthy => exact story.2 ▸ .reading firstHealthy story.1
  | checkingPick first second | weighingFirst first second | weighingSecond first second _ =>
      obtain ⟨pair, healthy, rfl⟩ := story
      exact .selected (.better pair (.inl rfl) (absurd rfl))
  | cloning node | touching node | counting node | numbering node | returning node =>
      obtain ⟨seen, selected, rfl⟩ := story
      exact (List.append_nil seen).symm ▸ .selected selected
  | holding request =>
      obtain ⟨node, -, seen, selected, rfl⟩ := story
      exact .returned selected
  | completing request node ending | timing request node ending
  | recording request node ending _ =>
      obtain ⟨-, seen, selected, rfl⟩ := story
      exact .ended ending selected
  | releasing request node ending =>
      obtain ⟨-, started, now, seen, selected, rfl⟩ := story
      exact .recorded ending started now selected
  | dropping request =>
      obtain ⟨-, node, ending, started, now, seen, selected, rfl⟩ := story
      exact .recorded ending started now selected
  | gone =>
      obtain ⟨node, ending, started, now, seen, selected, rfl⟩ := story
      exact .recorded ending started now selected
  | panicked => exact story.elim

end Story

/-! ## Counters -/

section Counters

variable {F : Type}

/-- The request holds the node. -/
def P2cRequest.on (request : P2cRequest) (node : Nat) : Bool :=
  request.node == some node

/-- The request is outstanding: `mark_picked` has counted it, and `complete` has not. -/
def Phase.outstanding (node : Nat) : Phase F → Bool
  | .numbering picked | .returning picked | .completing _ picked _ => picked == node
  | .holding request => request.on node
  | _ => false

/-- The call holds a clone of the node's `Arc`. -/
def Phase.cloned (node : Nat) : Phase F → Bool
  | .touching picked | .counting picked | .numbering picked | .returning picked
  | .completing _ picked _ | .timing _ picked _ | .recording _ picked _ _
  | .releasing _ picked _ => picked == node
  | .holding request => request.on node
  | _ => false

/-- The pick is counted in `requests`, and has not returned. -/
def Phase.numbered (node : Nat) : Phase F → Bool
  | .returning picked => picked == node
  | _ => false

/-- The completions recorded for a node: when the request was made, when it was completed, and
whether with success. -/
def recordings (node : Nat) (events : List Event) : List (Nat × Nat × Bool) :=
  events.filterMap fun event =>
    match event with
    | .recorded recorded started now success =>
        if recorded = node then some (started, now, success) else none
    | _ => none

def NodeState.replay (floats : Floats F) (state : NodeState F)
    (recorded : List (Nat × Nat × Bool)) : NodeState F :=
  recorded.foldl (fun state one => state.record floats one.1 one.2.1 one.2.2) state

/-- How often the node was returned. -/
def returns (node : Nat) (events : List Event) : Nat :=
  events.countP fun event => event == .returned node

def indicator (holds : Bool) : Nat :=
  if holds then 1 else 0

/-- What a step of a call changes in a node. -/
structure Delta (floats : Floats F) (node : Nat) (phase phase' : Phase F) (events : List Event)
    (before after : Node F) : Prop where
  strong : after.strong + indicator (phase.cloned node) =
    before.strong + indicator (phase'.cloned node)
  limit : before.strong ≤ maxRefcount + 1 → after.strong ≤ maxRefcount + 1
  inflight : after.inflight + BitVec.ofNat 64 (indicator (phase.outstanding node)) =
    before.inflight + BitVec.ofNat 64 (indicator (phase'.outstanding node))
  requests : after.requests + BitVec.ofNat 64 (indicator (phase.numbered node)) =
    before.requests + BitVec.ofNat 64 (indicator (phase'.numbered node) + returns node events)
  statistics : ∃ lastPick, after.state =
    { before.state.replay floats (recordings node events) with lastPick := lastPick }

variable {floats : Floats F} {nodes node picked : Nat} {trace events : List Event}
  {phase phase' : Phase F} {shared shared' : Shared F} {move : Move} {before after : Node F}

/-- A step that leaves the node as it is. -/
theorem Delta.keep (cloned : phase.cloned node = phase'.cloned node)
    (outstanding : phase.outstanding node = phase'.outstanding node)
    (numbered : indicator (phase.numbered node) =
      indicator (phase'.numbered node) + returns node events)
    (silent : recordings node events = []) :
    Delta floats node phase phase' events before before where
  strong := by rw [cloned]
  limit := id
  inflight := by rw [outstanding]
  requests := by rw [numbered]
  statistics := ⟨before.state.lastPick, by rw [silent]; rfl⟩

/-- An updated node: the picked one is changed, the others are as they were. -/
theorem Delta.update {change : Node F → Node F}
    (found : (shared.update picked change).nodes[node]? = some after)
    (mine : ∀ before, shared.nodes[node]? = some before → picked = node →
      Delta floats node phase phase' events before (change before))
    (other : ∀ before, picked ≠ node → Delta floats node phase phase' events before before) :
    ∃ before, shared.nodes[node]? = some before ∧
      Delta floats node phase phase' events before after := by
  rw [Shared.update, List.getElem?_modify] at found
  obtain ⟨before, here, rfl⟩ := Option.map_eq_some_iff.mp found
  refine ⟨before, here, ?_⟩
  split
  case isTrue same => exact mine before here same
  case isFalse differs => exact other before differs

theorem afterDraw_cases {nodes : Nat} {drawn : Option Nat} {next : BitVec 64}
    (after : afterDraw nodes drawn next = (phase', events)) :
    (phase' = .panicked ∨ ∃ first, phase' = .loading (some first)) ∧ events = [] ∨
      ∃ first second, phase' = .checkingFirst first second ∧ events = [.compared first second] := by
  unfold afterDraw at after
  split at after
  case h_1 =>
    split at after
    · cases after
      exact .inl ⟨.inl rfl, rfl⟩
    · cases after
      exact .inl ⟨.inr ⟨_, rfl⟩, rfl⟩
  case h_2 first =>
    split at after
    case h_1 =>
      cases after
      exact .inl ⟨.inl rfl, rfl⟩
    case h_2 second _ =>
      dsimp only at after
      generalize (if first ≤ second then second + 1 else second) = shifted at after
      split at after
      · cases after
        exact .inr ⟨_, _, rfl, rfl⟩
      · cases after
        exact .inl ⟨.inl rfl, rfl⟩

/-- A draw changes no node, and no count. -/
theorem Delta.draw {drawn : Option Nat} {current next : BitVec 64}
    (after : afterDraw nodes drawn next = (phase', events)) (node : Nat) (before : Node F) :
    Delta floats node (.exchanging drawn current) phase' events before before := by
  rcases afterDraw_cases after with ⟨rfl | ⟨first, rfl⟩, rfl⟩ | ⟨first, second, rfl, rfl⟩
  · exact .keep rfl rfl rfl rfl
  · exact .keep rfl rfl rfl rfl
  · exact .keep rfl rfl rfl rfl

theorem leave_cases (request : P2cRequest) (ending : Ending) :
    leave (F := F) request ending = .dropping request ∨ leave (F := F) request ending = .gone := by
  cases ending with
  | completed success => exact .inl rfl
  | dropped => exact .inr rfl

theorem proceed_delta (story : Story nodes phase trace)
    (positive : ∀ before, shared.nodes[node]? = some before → 1 ≤ before.strong)
    (step : Proceeds floats shared phase shared' phase' events)
    (found : shared'.nodes[node]? = some after) :
    ∃ before, shared.nodes[node]? = some before ∧
      Delta floats node phase phase' events before after := by
  cases step with
  | exchange drawn => exact ⟨after, found, .draw drawn node after⟩
  | clone here free =>
      refine Delta.update found ?_ ?_
      · intro before same rfl
        cases here.symm.trans same
        exact ⟨by simp [indicator, Phase.cloned], fun _ => Nat.succ_le_succ free, rfl, rfl,
          ⟨_, rfl⟩⟩
      · intro before differs
        exact .keep (beq_false_of_ne differs).symm rfl rfl rfl
  | touch now =>
      refine Delta.update found ?_ ?_
      · intro before _ _
        exact ⟨rfl, id, rfl, rfl, ⟨_, rfl⟩⟩
      · intro before differs
        exact .keep rfl rfl rfl rfl
  | count =>
      refine Delta.update found ?_ ?_
      · intro before _ rfl
        exact ⟨rfl, id, by simp [indicator, Phase.outstanding], rfl, ⟨_, rfl⟩⟩
      · intro before differs
        exact .keep rfl (beq_false_of_ne differs).symm rfl rfl
  | number =>
      refine Delta.update found ?_ ?_
      · intro before _ rfl
        exact ⟨rfl, id, rfl, by simp [indicator, Phase.numbered, returns], ⟨_, rfl⟩⟩
      · intro before differs
        exact .keep rfl rfl (by simp [indicator, Phase.numbered, returns, differs]) rfl
  | hand now =>
      refine ⟨after, found, .keep ?_ ?_ ?_ rfl⟩
      · simp [Phase.cloned, P2cRequest.on]
      · simp [Phase.outstanding, P2cRequest.on]
      · simp [indicator, Phase.numbered, returns]
  | finish ending =>
      obtain ⟨picked, held, -⟩ := story
      rw [take, held]
      refine ⟨after, found, .keep ?_ ?_ rfl rfl⟩
      · simp [Phase.cloned, P2cRequest.on, held]
      · simp [Phase.outstanding, P2cRequest.on, held]
  | discount =>
      refine Delta.update found ?_ ?_
      · intro before _ rfl
        exact ⟨rfl, id, by simp [indicator, Phase.outstanding], rfl, ⟨_, rfl⟩⟩
      · intro before differs
        exact .keep rfl (beq_false_of_ne differs) rfl rfl
  | record =>
      refine Delta.update found ?_ ?_
      · intro before _ rfl
        refine ⟨rfl, id, rfl, rfl, ⟨before.state.lastPick, ?_⟩⟩
        simp [recordings, NodeState.replay, NodeState.record]
      · intro before differs
        exact .keep rfl rfl rfl (by simp [recordings, differs])
  | @release request index ending =>
      refine Delta.update found ?_ ?_
      · intro before same rfl
        have one := positive before same
        have strong : before.strong - 1 + 1 = before.strong := Nat.sub_add_cancel one
        rcases leave_cases (F := F) request ending with left | left <;> rw [left]
        all_goals
          exact ⟨by simpa [indicator, Phase.cloned] using strong,
            fun limit => (Nat.sub_le _ _).trans limit, rfl, rfl, ⟨_, rfl⟩⟩
      · intro before differs
        rcases leave_cases (F := F) request ending with left | left <;> rw [left]
        all_goals exact .keep (beq_false_of_ne differs) rfl rfl rfl
  | drop =>
      rw [take, story.1]
      exact ⟨after, found, .keep rfl rfl rfl rfl⟩
  | _ => exact ⟨after, found, .keep rfl rfl rfl rfl⟩

/-- The counters of a node made at a time, after calls that have come so far and these events. -/
structure Counts (floats : Floats F) (created index : Nat) (calls : List (Phase F))
    (events : List Event) (node : Node F) : Prop where
  strong : node.strong = 1 + calls.countP (Phase.cloned index)
  limit : node.strong ≤ maxRefcount + 1
  inflight : node.inflight = BitVec.ofNat 64 (calls.countP (Phase.outstanding index))
  requests : node.requests =
    BitVec.ofNat 64 (returns index events + calls.countP (Phase.numbered index))
  statistics : ∃ lastPick, node.state =
    { (NodeState.new floats created).replay floats (recordings index events) with
      lastPick := lastPick }

variable {created call : Nat} {calls : List (Phase F)}

theorem replay_lastPick (state : NodeState F) (lastPick : Nat)
    (recorded : List (Nat × Nat × Bool)) :
    NodeState.replay floats { state with lastPick := lastPick } recorded =
      { state.replay floats recorded with lastPick := lastPick } := by
  induction recorded generalizing state with
  | nil => rfl
  | cons one recorded ih => exact ih (state.record floats one.1 one.2.1 one.2.2)

theorem Counts.start : Counts floats created node [] [] (.new floats created) where
  strong := rfl
  limit := Nat.succ_le_succ (Nat.zero_le _)
  inflight := rfl
  requests := rfl
  statistics := ⟨created, rfl⟩

/-- A call that begins counts nowhere. -/
theorem Counts.pick (counts : Counts floats created node calls events before) :
    Counts floats created node (calls ++ [.picking]) events before where
  strong := by
    rw [List.countP_append]
    exact counts.strong
  limit := counts.limit
  inflight := by
    rw [List.countP_append]
    exact counts.inflight
  requests := by
    rw [List.countP_append]
    exact counts.requests
  statistics := counts.statistics

theorem Counts.proceed {out : List Event} (counts : Counts floats created node calls events before)
    (found : calls[call]? = some phase)
    (delta : Delta floats node phase phase' out before after) :
    Counts floats created node (calls.set call phase') (events ++ out) after where
  strong := by
    have moved := countP_set_add (Phase.cloned node) found phase'
    have changed := delta.strong
    rw [counts.strong, indicator, indicator] at changed
    omega
  limit := delta.limit counts.limit
  inflight := by
    have moved := countP_set_add (Phase.outstanding node) found phase'
    have changed := delta.inflight
    rw [counts.inflight, ← BitVec.ofNat_add, indicator, indicator, ← moved,
      BitVec.ofNat_add] at changed
    exact add_right_cancel changed
  requests := by
    have moved := countP_set_add (Phase.numbered node) found phase'
    have changed := delta.requests
    rw [counts.requests, ← BitVec.ofNat_add, indicator, indicator] at changed
    have sums : returns node events + calls.countP (Phase.numbered node) +
        ((if phase'.numbered node then 1 else 0) + returns node out) =
          returns node (events ++ out) + (calls.set call phase').countP (Phase.numbered node) +
            (if phase.numbered node then 1 else 0) := by
      rw [returns, returns, returns, List.countP_append]
      omega
    rw [sums, BitVec.ofNat_add] at changed
    exact add_right_cancel changed
  statistics := by
    obtain ⟨lastPick, before_eq⟩ := counts.statistics
    obtain ⟨lastPick', after_eq⟩ := delta.statistics
    refine ⟨lastPick', ?_⟩
    rw [after_eq, before_eq, replay_lastPick, recordings, recordings, recordings,
      List.filterMap_append, NodeState.replay, NodeState.replay, NodeState.replay,
      List.foldl_append]

end Counters

/-! ## Every interleaving -/

section Runs

variable {F : Type} {floats : Floats F} {pool : Pool}

/-- The atomics and nodes after a step: as they were, or one of them changed. -/
inductive Effect (shared : Shared F) : Shared F → Prop
  | keep : Effect shared shared
  | draw : Effect shared shared.draw
  | update (node : Nat) (change : Node F → Node F) : Effect shared (shared.update node change)

theorem Proceeds.effect {shared shared' : Shared F} {phase phase' : Phase F} {out : List Event}
    (step : Proceeds floats shared phase shared' phase' out) : Effect shared shared' := by
  cases step with
  | exchange after => exact .draw
  | clone found free => exact .update _ _
  | touch now => exact .update _ _
  | count => exact .update _ _
  | number => exact .update _ _
  | discount => exact .update _ _
  | record => exact .update _ _
  | release => exact .update _ _
  | _ => exact .keep

theorem Effect.size {shared shared' : Shared F} (effect : Effect shared shared') :
    shared'.nodes.length = shared.nodes.length := by
  cases effect with
  | keep => rfl
  | draw => rfl
  | update node change => exact List.length_modify _ _ _

theorem Effect.random_ne_zero {shared shared' : Shared F} (effect : Effect shared shared')
    (nonzero : shared.random ≠ 0#64) : shared'.random ≠ 0#64 := by
  cases effect with
  | keep => exact nonzero
  | draw => exact nextRandom_ne_zero nonzero
  | update node change => exact nonzero

/-- What holds after every run. -/
structure Accounts (floats : Floats F) (pool : Pool) (state : State F) (history : List Entry) :
    Prop where
  size : state.shared.nodes.length = pool.size
  random : state.shared.random ≠ 0#64
  known : ∀ entry ∈ history, entry.1 < state.calls.length
  stories : ∀ call phase, state.calls[call]? = some phase →
    Story pool.size phase (trail history call)
  counts : ∀ index node created, state.shared.nodes[index]? = some node →
    pool.created[index]? = some created →
      Counts floats created index state.calls (history.map Prod.snd) node

/-- The health that a call reads is that of the node. -/
theorem Proceeds.read {shared shared' : Shared F} {phase phase' : Phase F} {out : List Event}
    {index : Nat} {healthy : Bool} (step : Proceeds floats shared phase shared' phase' out)
    (member : .read index healthy ∈ out) :
    ∃ node, shared.nodes[index]? = some node ∧ node.healthy floats = healthy := by
  cases step with
  | exchange drawn =>
      rcases afterDraw_cases drawn with ⟨-, rfl⟩ | ⟨first, second, -, rfl⟩
      · cases member
      · cases List.mem_singleton.mp member
  | checkFirst found =>
      cases List.mem_singleton.mp member
      exact ⟨_, found, rfl⟩
  | differ found differs =>
      cases List.mem_singleton.mp member
      exact ⟨_, found, rfl⟩
  | agree found =>
      cases List.mem_singleton.mp member
      exact ⟨_, found, rfl⟩
  | hand now => cases List.mem_singleton.mp member
  | finish ending => cases List.mem_singleton.mp member
  | record => cases List.mem_singleton.mp member
  | _ => cases member

namespace Accounts

variable {state state' : State F} {history : List Entry} {out : List Entry} {action : Action}

theorem start : Accounts floats pool (P2c.start floats pool) [] where
  size := List.length_map _
  random := seed_ne_zero
  known _ member := by cases member
  stories _ _ found := by cases found
  counts index node created found made := by
    rw [P2c.start, List.getElem?_map, made] at found
    cases found
    exact .start

theorem pick (accounts : Accounts floats pool state history) :
    Accounts floats pool { state with calls := state.calls ++ [.picking] } history where
  size := accounts.size
  random := accounts.random
  known entry member := by
    rw [List.length_append]
    exact Nat.lt_add_right 1 (accounts.known entry member)
  stories call phase found := by
    rcases Nat.lt_or_ge call state.calls.length with old | new
    · rw [List.getElem?_append_left old] at found
      exact accounts.stories call phase found
    · rw [List.getElem?_append_right new] at found
      rw [List.mem_singleton.mp (List.mem_of_getElem? found)]
      exact trail_unknown fun entry member => (accounts.known entry member).trans_le new
  counts index node created found made := (accounts.counts index node created found made).pick

theorem proceed {call : Nat} {phase phase' : Phase F} {shared : Shared F} {move : Move}
    {events : List Event} (accounts : Accounts floats pool state history)
    (found : state.calls[call]? = some phase)
    (ran : P2c.proceed floats state.shared phase move = some (shared, phase', events)) :
    Accounts floats pool ⟨shared, state.calls.set call phase'⟩
      (history ++ events.map (call, ·)) where
  size := (proceed_cases ran).effect.size.trans accounts.size
  random := (proceed_cases ran).effect.random_ne_zero accounts.random
  known entry member := by
    rw [List.length_set]
    rcases List.mem_append.mp member with old | new
    · exact accounts.known entry old
    · obtain ⟨event, -, rfl⟩ := List.mem_map.mp new
      exact (List.getElem?_eq_some_iff.mp found).1
  stories := by
    refine forall_set (P := fun index party =>
      Story pool.size party (trail (history ++ events.map (call, ·)) index)) ?_ ?_
    · rw [trail_append_self]
      exact (accounts.stories call phase found).proceed accounts.size pool.size_pos
        (proceed_cases ran)
    · intro other party distinct there
      rw [trail_append_other distinct]
      exact accounts.stories other party there
  counts index node created here made := by
    have positive (before : Node F) (there : state.shared.nodes[index]? = some before) :
        1 ≤ before.strong := by
      rw [(accounts.counts index before created there made).strong]
      exact Nat.le_add_right 1 _
    obtain ⟨before, there, delta⟩ :=
      proceed_delta (accounts.stories call phase found) positive (proceed_cases ran) here
    have after := (accounts.counts index before created there made).proceed found delta
    rw [List.map_append, List.map_map]
    exact (List.map_id events).symm ▸ after

theorem advance (accounts : Accounts floats pool state history)
    (taken : P2c.advance floats state action = some (state', out)) :
    Accounts floats pool state' (history ++ out) := by
  cases action with
  | pick =>
      cases taken
      rw [List.append_nil]
      exact accounts.pick
  | move call move =>
      obtain ⟨phase, found, moved⟩ := Option.bind_eq_some_iff.mp taken
      obtain ⟨next, ran, same⟩ := Option.map_eq_some_iff.mp moved
      obtain ⟨shared, phase', events⟩ := next
      cases same
      exact accounts.proceed found ran

/-- The invariant of every run. -/
theorem of_reachable (reach : (system floats pool).Reachable (state, history)) :
    Accounts floats pool state history := by
  refine reach.emitting_invariant (I := Accounts floats pool) start ?_
  intro state history action state' out accounts _ taken
  exact accounts.advance taken

/-- No more than a `usize` counts, since each outstanding request holds a clone of the `Arc`. -/
theorem outstanding_lt (accounts : Accounts floats pool state history) {index created : Nat}
    {node : Node F} (found : state.shared.nodes[index]? = some node)
    (made : pool.created[index]? = some created) :
    state.calls.countP (Phase.outstanding index) < 2 ^ 64 := by
  have counts := accounts.counts index node created found made
  have limit := counts.limit
  have clones : state.calls.countP (Phase.outstanding index) ≤
      state.calls.countP (Phase.cloned index) := by
    refine List.countP_mono_left ?_
    intro phase _ outstanding
    cases phase <;> first | exact outstanding | cases outstanding
  rw [counts.strong, maxRefcount] at limit
  omega

theorem exists_created (accounts : Accounts floats pool state history) {index : Nat}
    {node : Node F} (found : state.shared.nodes[index]? = some node) :
    ∃ created, pool.created[index]? = some created := by
  have within := (List.getElem?_eq_some_iff.mp found).1
  rw [accounts.size] at within
  exact ⟨_, List.getElem?_eq_getElem within⟩

theorem inflight (accounts : Accounts floats pool state history) {index : Nat} {node : Node F}
    (found : state.shared.nodes[index]? = some node) :
    node.inflight.toNat = state.calls.countP (Phase.outstanding index) := by
  obtain ⟨created, made⟩ := accounts.exists_created found
  rw [(accounts.counts index node created found made).inflight, BitVec.toNat_ofNat,
    Nat.mod_eq_of_lt (accounts.outstanding_lt found made)]

theorem requests (accounts : Accounts floats pool state history) {index : Nat} {node : Node F}
    (found : state.shared.nodes[index]? = some node) :
    node.requests.toNat = (returns index (history.map Prod.snd) +
      state.calls.countP (Phase.numbered index)) % 2 ^ 64 := by
  obtain ⟨created, made⟩ := accounts.exists_created found
  rw [(accounts.counts index node created found made).requests, BitVec.toNat_ofNat]

theorem course (accounts : Accounts floats pool state history) (call : Nat) :
    Course pool.size (trail history call) := by
  rcases Nat.lt_or_ge call state.calls.length with old | new
  · exact (accounts.stories call _ (List.getElem?_eq_getElem old)).course
  · have unknown : trail history call = [] :=
      trail_unknown fun entry member => (accounts.known entry member).trans_le new
    rw [unknown]
    exact .begun

/-- `fetch_sub` finds the request that it discounts. -/
theorem inflight_pos (accounts : Accounts floats pool state history) {call index : Nat}
    {request : P2cRequest} {ending : Ending}
    (found : state.calls[call]? = some (.completing request index ending)) :
    ∃ node, state.shared.nodes[index]? = some node ∧ 1 ≤ node.inflight.toNat := by
  obtain ⟨-, seen, selected, -⟩ := accounts.stories call _ found
  have within : index < state.shared.nodes.length := by
    rw [accounts.size]
    exact selected.lt
  have here := List.getElem?_eq_getElem within
  refine ⟨_, here, ?_⟩
  rw [accounts.inflight here]
  exact List.countP_pos_iff.mpr ⟨_, List.mem_of_getElem? found, beq_self_eq_true index⟩

end Accounts

/-- Whether the call holds a request for the node. -/
def Phase.holds (node : Nat) : Phase F → Bool
  | .holding request => request.on node
  | _ => false

/-- No call is inside `pick` or about to complete a request. -/
def Settled (calls : List (Phase F)) : Prop :=
  ∀ phase ∈ calls, phase = .gone ∨ ∃ request, phase = .holding request

/-- What the balancer promises in every run: a pick compares two nodes of the pool and prefers the
healthy one, any two can be compared, and picks and completions are counted. -/
structure Sound (floats : Floats F) (pool : Pool) : Prop where
  random : ∀ state history, (system floats pool).Reachable (state, history) →
    state.shared.random ≠ 0#64
  total : ∀ state history, (system floats pool).Reachable (state, history) →
    .panicked ∉ state.calls
  courses : ∀ state history, (system floats pool).Reachable (state, history) →
    ∀ call, Course pool.size (trail history call)
  reads : ∀ (state state' : State F) action entries call index healthy,
    advance floats state action = some (state', entries) → (call, .read index healthy) ∈ entries →
      ∃ node, state.shared.nodes[index]? = some node ∧ node.healthy floats = healthy
  pairs : ∀ state history, (system floats pool).Reachable (state, history) →
    ∀ first second, Pair pool.size first second →
      ∃ (state' : State F) (call : Nat), (system floats pool).Steps Lts.Always (state, history)
        (state', history ++ [(call, .compared first second)])
  inflight : ∀ state history, (system floats pool).Reachable (state, history) →
    ∀ index node, state.shared.nodes[index]? = some node →
      node.inflight.toNat = state.calls.countP (Phase.outstanding index)
  decrement : ∀ state history, (system floats pool).Reachable (state, history) →
    ∀ (call : Nat) (request : P2cRequest) (index : Nat) (ending : Ending),
      state.calls[call]? = some (.completing request index ending) →
        ∃ node, state.shared.nodes[index]? = some node ∧ 1 ≤ node.inflight.toNat
  requests : ∀ state history, (system floats pool).Reachable (state, history) →
    ∀ index node, state.shared.nodes[index]? = some node →
      node.requests.toNat = (returns index (history.map Prod.snd) +
        state.calls.countP (Phase.numbered index)) % 2 ^ 64
  settled : ∀ state history, (system floats pool).Reachable (state, history) →
    Settled state.calls → ∀ index node, state.shared.nodes[index]? = some node →
      node.inflight.toNat = state.calls.countP (Phase.holds index) ∧
        node.requests.toNat = returns index (history.map Prod.snd) % 2 ^ 64
  once : ∀ state history, (system floats pool).Reachable (state, history) →
    ∀ call : Nat, state.calls[call]? = some .gone → ∃ node seen ending started now,
      Selected pool.size node seen ∧ trail history call =
        seen ++ [.returned node, .ended ending, .recorded node started now ending.success]
  statistics : ∀ state history, (system floats pool).Reachable (state, history) →
    ∀ index node created, state.shared.nodes[index]? = some node →
      pool.created[index]? = some created → ∃ lastPick, node.state =
        { (NodeState.new floats created).replay floats
            (recordings index (history.map Prod.snd)) with lastPick := lastPick }

theorem settled_counts {calls : List (Phase F)} (settled : Settled calls) (index : Nat) :
    calls.countP (Phase.outstanding index) = calls.countP (Phase.holds index) ∧
      calls.countP (Phase.numbered index) = 0 := by
  constructor
  · refine List.countP_congr ?_
    intro phase member
    rcases settled phase member with rfl | ⟨request, rfl⟩
    · exact Iff.rfl
    · exact Iff.rfl
  · rw [List.countP_eq_zero]
    intro phase member
    rcases settled phase member with rfl | ⟨request, rfl⟩
    · exact Bool.false_ne_true
    · exact Bool.false_ne_true

/-- The balancer picks soundly and accounts exactly, in every interleaving. -/
theorem balancer_accounts (floats : Floats F) (pool : Pool) : Sound floats pool where
  random _ _ reach := (Accounts.of_reachable reach).random
  total state history reach member := by
    obtain ⟨call, found⟩ := List.mem_iff_getElem?.mp member
    exact (Accounts.of_reachable reach).stories call _ found
  courses _ _ reach := (Accounts.of_reachable reach).course
  reads state state' action entries call index healthy taken member := by
    cases action with
    | pick =>
        cases taken
        cases member
    | move mover move =>
        obtain ⟨phase, -, moved⟩ := Option.bind_eq_some_iff.mp taken
        obtain ⟨next, ran, same⟩ := Option.map_eq_some_iff.mp moved
        cases same
        obtain ⟨event, inside, same⟩ := List.mem_map.mp member
        cases same
        exact (proceed_cases ran).read inside
  pairs state history reach first second pair := by
    have accounts := Accounts.of_reachable reach
    have size := accounts.size
    exact pair_reachable accounts.random (size ▸ pool.fits) pair.distinct
      (size ▸ pair.first_lt) (size ▸ pair.second_lt)
  inflight _ _ reach _ _ := (Accounts.of_reachable reach).inflight
  decrement _ _ reach _ _ _ _ := (Accounts.of_reachable reach).inflight_pos
  requests _ _ reach _ _ := (Accounts.of_reachable reach).requests
  settled state history reach settled index node found := by
    have accounts := Accounts.of_reachable reach
    obtain ⟨outstanding, numbered⟩ := settled_counts settled index
    refine ⟨(accounts.inflight found).trans outstanding, ?_⟩
    rw [accounts.requests found, numbered, Nat.add_zero]
  once state history reach call found := by
    obtain ⟨node, ending, started, now, seen, selected, same⟩ :=
      (Accounts.of_reachable reach).stories call _ found
    exact ⟨node, seen, ending, started, now, selected, same⟩
  statistics _ _ reach index node created found made :=
    ((Accounts.of_reachable reach).counts index node created found made).statistics

/-! ## A run of many picks -/

variable {shared shared' : Shared F} {phase phase' : Phase F} {calls : List (Phase F)}
  {history : List Entry} {events : List Event} {move : Move}

variable (pool calls history) in
/-- The last call takes a step. -/
theorem last_steps (ran : proceed floats shared phase move = some (shared', phase', events)) :
    (system floats pool).Steps Lts.Always (⟨shared, calls ++ [phase]⟩, history)
      (⟨shared', calls ++ [phase']⟩, history ++ events.map (calls.length, ·)) := by
  have stepped := steps_of_move floats pool ⟨shared, calls ++ [phase]⟩ history
    List.getElem?_concat_length ran
  rw [List.set_append_right _ _ le_rfl, Nat.sub_self, List.set_cons_zero] at stepped
  exact stepped

variable (floats) in
/-- A call that goes on alone. -/
def proceedAll : Shared F → Phase F → List Move → Option (Shared F × Phase F × List Event)
  | shared, phase, [] => some (shared, phase, [])
  | shared, phase, move :: moves =>
      (proceed floats shared phase move).bind fun next =>
        (proceedAll next.1 next.2.1 moves).map fun last =>
          (last.1, last.2.1, next.2.2 ++ last.2.2)

variable (pool calls history) in
theorem alone_steps {moves : List Move}
    (ran : proceedAll floats shared phase moves = some (shared', phase', events)) :
    (system floats pool).Steps Lts.Always (⟨shared, calls ++ [phase]⟩, history)
      (⟨shared', calls ++ [phase']⟩, history ++ events.map (calls.length, ·)) := by
  induction moves generalizing shared phase events history with
  | nil =>
      cases ran
      rw [List.map_nil, List.append_nil]
      exact Lts.Steps.refl _
  | cons move moves ih =>
      obtain ⟨next, first, rest⟩ := Option.bind_eq_some_iff.mp ran
      obtain ⟨last, later, same⟩ := Option.map_eq_some_iff.mp rest
      cases same
      rw [List.map_append, ← List.append_assoc]
      exact (last_steps pool calls history first).trans (ih _ later)

/-- A pool of one node, made at time 0. -/
def lonePool : Pool :=
  ⟨[0], List.cons_ne_nil 0 [], Nat.one_lt_two_pow (Nat.succ_ne_zero 63)⟩

/-- A pick of the only node, whose request is dropped. -/
def loneRound : List Move :=
  List.replicate 6 (.step false 0) ++ .finish .dropped :: List.replicate 4 (.step false 0)

/-- Any number of picks leave the only node with no outstanding request. -/
theorem rounds_reachable (floats : Floats F) (rounds : Nat) :
    ∃ state history node, (system floats lonePool).Reachable (state, history) ∧
      state.shared.nodes = [node] ∧ node.strong = 1 ∧ (∀ phase ∈ state.calls, phase = .gone) ∧
      returns 0 (history.map Prod.snd) = rounds := by
  induction rounds with
  | zero =>
      refine ⟨start floats lonePool, [], _, Lts.Reach.init, rfl, rfl, ?_, rfl⟩
      intro phase member
      cases member
  | succ rounds ih =>
      obtain ⟨⟨⟨nodes, random⟩, calls⟩, history, node, reach, rfl, strong, gone, returned⟩ := ih
      obtain ⟨inflight, requests, nodeState, count⟩ := node
      cases strong
      have ran : proceedAll floats ⟨[⟨inflight, requests, nodeState, 1⟩], random⟩ .picking
          loneRound = some (⟨[⟨inflight + 1 - 1, requests + 1, NodeState.record floats
            { nodeState with lastPick := 0 } 0 0 false, 1⟩], random⟩, .gone,
            [.returned 0, .ended .dropped, .recorded 0 0 0 false]) := rfl
      have opened : advance floats ⟨⟨[⟨inflight, requests, nodeState, 1⟩], random⟩, calls⟩ .pick =
          some (⟨⟨[⟨inflight, requests, nodeState, 1⟩], random⟩, calls ++ [.picking]⟩, []) := rfl
      have begun := steps_of_advance floats lonePool history opened
      have alone := alone_steps lonePool calls history ran
      rw [List.append_nil] at begun
      refine ⟨_, _, _, (reach.trans begun).trans alone, rfl, rfl, ?_, ?_⟩
      · intro phase member
        rcases List.mem_append.mp member with old | new
        · exact gone phase old
        · exact List.mem_singleton.mp new
      · rw [List.map_append, returns, List.countP_append]
        exact congrArg (· + 1) returned

/-- Floating point without fractions. -/
def wholeNumbers : Floats Nat where
  ofNat := id
  half := 0
  seconds nanos := nanos / 1000000000
  add := Nat.add
  sub := Nat.sub
  mul := Nat.mul
  div := Nat.div
  neg _ := 0
  sqrt := Nat.sqrt
  exp _ := 1
  max := Nat.max
  lt := Nat.blt
  le := Nat.ble
  eq := Nat.beq

/-- After 2^64 picks `requests` is 0 again. -/
theorem requests_wrap : ∃ (state : State Nat) (history : List Entry) (node : Node Nat),
    (system wholeNumbers lonePool).Reachable (state, history) ∧ Settled state.calls ∧
      state.shared.nodes[0]? = some node ∧ returns 0 (history.map Prod.snd) = 2 ^ 64 ∧
        node.requests.toNat = 0 := by
  obtain ⟨state, history, node, reach, nodes, -, gone, returned⟩ :=
    rounds_reachable wholeNumbers (2 ^ 64)
  have settled : Settled state.calls := fun phase member => .inl (gone phase member)
  have found : state.shared.nodes[0]? = some node := by
    rw [nodes]
    rfl
  refine ⟨state, history, node, reach, settled, found, returned, ?_⟩
  rw [(Accounts.of_reachable reach).requests found, returned, (settled_counts settled 0).2]
  rfl

end Runs

end RustZero.P2c
