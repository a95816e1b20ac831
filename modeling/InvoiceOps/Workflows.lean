import InvoiceOps.Adk
import InvoiceOps.Policy

/-!
# Two builds of the workflow

The same nodes are put together twice. In `LangGraph` every field of the state is a channel of its
own, a node writes the channels it returns, and the next node is asked of the state they make. In
`AdkWorkflow` a node's update is laid over the dump of the state, which is validated as a whole and
kept in the session, and the next node follows the route of its event ; a review is a node that asks
and one that applies the answer.

From a state in which no node has completed, both visit the same nodes and leave the same state
after each of them, whatever the services answer (`workflows_agree`).
-/

namespace InvoiceOps

/-! ## Texts -/

namespace InvoiceNodeName

/-- The value of a node. -/
def text : InvoiceNodeName → String
  | ingest => "Ingest"
  | extract => "Extract"
  | validate => "Validate"
  | match3Way => "Match3Way"
  | policy => "Policy"
  | gate => "Gate"
  | autoApprove => "AutoApprove"
  | exceptionTriage => "ExceptionTriage"
  | humanReview => "HumanReview"
  | archive => "Archive"
  | reject => "Reject"

/-- A node is read back by its value. -/
def codec : Codec InvoiceNodeName :=
  .literal text [ingest, extract, validate, match3Way, policy, gate, autoApprove, exceptionTriage,
    humanReview, archive, reject] fun x => by cases x <;> rfl

end InvoiceNodeName

namespace GraphStatus

/-- The value of a status. -/
def text : GraphStatus → String
  | queued => "queued"
  | running => "running"
  | awaitingReview => "awaiting_review"
  | completed => "completed"
  | rejected => "rejected"

/-- A status is read back by its value. -/
def codec : Codec GraphStatus :=
  .literal text [queued, running, awaitingReview, completed, rejected] fun x => by cases x <;> rfl

end GraphStatus

namespace InvoiceRoute

/-- The value of a route. -/
def text : InvoiceRoute → String
  | autoApprove => "AUTO_APPROVE"
  | review => "REVIEW"
  | reject => "REJECT"

/-- A route is read back by its value. -/
def codec : Codec InvoiceRoute :=
  .literal text [autoApprove, review, reject] fun x => by cases x <;> rfl

end InvoiceRoute

/-! ## Channels -/

/-- The fields of the state. -/
inductive Channel where
  | runId | invoiceId | traceId | graphVersion | asOf | rawRef | contentHash | contentType
  | duplicate | status | route | extractionOutcome | extraction | validation | «match» | snapshot
  | similarity | taxonomy | policy | gate | triage | review | completedNodes
  deriving DecidableEq

/-- The fields of a state, each as JSON. -/
abbrev Channels := Channel → Json

/-- `DocumentType`. -/
def documentTypes : List String :=
  [DocumentType.pdf, .png, .jpeg].map DocumentType.text

namespace InvoiceGraphState

/-- The evidence a state holds. -/
def evidence (s : InvoiceGraphState) : List (Option Json) :=
  [s.extractionOutcome, s.extraction, s.validation, s.match, s.snapshot, s.similarity, s.taxonomy,
    s.policy, s.gate, s.triage, s.review]

/-- What the model of a state requires. -/
structure Valid (s : InvoiceGraphState) : Prop where
  traceId : isTraceId s.traceId
  rawRef : 1 ≤ s.rawRef.length ∧ s.rawRef.length ≤ 256
  contentHash : isSha256 s.contentHash
  contentType : s.contentType ∈ documentTypes
  evidence : ∀ j ∈ s.evidence, j.all Json.isObject
  progress : s.validProgress

instance : DecidablePred Valid := fun s =>
  decidable_of_iff
    (isTraceId s.traceId ∧ (1 ≤ s.rawRef.length ∧ s.rawRef.length ≤ 256) ∧
      isSha256 s.contentHash ∧ s.contentType ∈ documentTypes ∧
      (∀ j ∈ s.evidence, j.all Json.isObject) ∧ s.validProgress)
    ⟨fun ⟨h₁, h₂, h₃, h₄, h₅, h₆⟩ => ⟨h₁, h₂, h₃, h₄, h₅, h₆⟩,
      fun h => ⟨h.traceId, h.rawRef, h.contentHash, h.contentType, h.evidence, h.progress⟩⟩

/-- A route, or `null`. -/
def routeCodec : Codec (Option InvoiceRoute) :=
  InvoiceRoute.codec.nullable fun _ => nofun

/-- A dictionary or `null`. -/
def dumpObject (j : Option Json) : Json :=
  j.getD .null

/-- A dictionary, or nothing for `null`. -/
def readObject (j : Json) : Option Json :=
  if j = .null then none else some j

variable (host : Host)

/-- `model_dump(mode="json")`. -/
def dump (s : InvoiceGraphState) : Channels
  | .runId => host.uuid.dump s.runId
  | .invoiceId => host.uuid.dump s.invoiceId
  | .traceId => .str s.traceId
  | .graphVersion => .str "invoice-v1"
  | .asOf => host.date.dump s.asOf
  | .rawRef => .str s.rawRef
  | .contentHash => .str s.contentHash
  | .contentType => .str s.contentType
  | .duplicate => .bool s.duplicate
  | .status => GraphStatus.codec.dump s.status
  | .route => routeCodec.dump s.route
  | .extractionOutcome => dumpObject s.extractionOutcome
  | .extraction => dumpObject s.extraction
  | .validation => dumpObject s.validation
  | .match => dumpObject s.match
  | .snapshot => dumpObject s.snapshot
  | .similarity => dumpObject s.similarity
  | .taxonomy => dumpObject s.taxonomy
  | .policy => dumpObject s.policy
  | .gate => dumpObject s.gate
  | .triage => dumpObject s.triage
  | .review => dumpObject s.review
  | .completedNodes => InvoiceNodeName.codec.list.dump s.completedNodes

/-- `model_validate`. -/
def validate (c : Channels) : Option InvoiceGraphState := do
  guard (c .graphVersion = .str "invoice-v1")
  let runId ← host.uuid.parse (c .runId)
  let invoiceId ← host.uuid.parse (c .invoiceId)
  let traceId ← Codec.string.parse (c .traceId)
  let asOf ← host.date.parse (c .asOf)
  let rawRef ← Codec.string.parse (c .rawRef)
  let contentHash ← Codec.string.parse (c .contentHash)
  let contentType ← Codec.string.parse (c .contentType)
  let duplicate ← Codec.bool.parse (c .duplicate)
  let status ← GraphStatus.codec.parse (c .status)
  let route ← routeCodec.parse (c .route)
  let completedNodes ← InvoiceNodeName.codec.list.parse (c .completedNodes)
  let s : InvoiceGraphState :=
    { runId, invoiceId, traceId, asOf, rawRef, contentHash, contentType, duplicate, status, route
      extractionOutcome := readObject (c .extractionOutcome)
      extraction := readObject (c .extraction)
      validation := readObject (c .validation)
      «match» := readObject (c .match)
      snapshot := readObject (c .snapshot)
      similarity := readObject (c .similarity)
      taxonomy := readObject (c .taxonomy)
      policy := readObject (c .policy)
      gate := readObject (c .gate)
      triage := readObject (c .triage)
      review := readObject (c .review)
      completedNodes }
  guard s.Valid
  return s

/-- An object is read back as it was written. -/
theorem readObject_dumpObject {j : Option Json} (h : j.all Json.isObject) :
    readObject (dumpObject j) = j := by
  cases j with
  | none => rfl
  | some j =>
    have hne : j ≠ .null := by
      rintro rfl
      exact Bool.false_ne_true h
    exact if_neg hne

/-- What is dumped is read back if it is valid. -/
theorem validate_dump_eq {s : InvoiceGraphState} (h : ∀ j ∈ s.evidence, j.all Json.isObject) :
    validate host (dump host s) = if s.Valid then some s else none := by
  have hread : ∀ j ∈ s.evidence, readObject (dumpObject j) = j :=
    fun j hj => readObject_dumpObject (h j hj)
  simp only [InvoiceGraphState.evidence, List.forall_mem_cons] at hread
  obtain ⟨h₁, h₂, h₃, h₄, h₅, h₆, h₇, h₈, h₉, h₁₀, h₁₁, -⟩ := hread
  have hrunId : host.uuid.parse (host.uuid.dump s.runId) = some s.runId := host.uuid.parse_dump _
  have hinvoiceId : host.uuid.parse (host.uuid.dump s.invoiceId) = some s.invoiceId :=
    host.uuid.parse_dump _
  have hasOf : host.date.parse (host.date.dump s.asOf) = some s.asOf := host.date.parse_dump _
  have hstatus : GraphStatus.codec.parse (GraphStatus.codec.dump s.status) = some s.status :=
    GraphStatus.codec.parse_dump _
  have hroute : routeCodec.parse (routeCodec.dump s.route) = some s.route :=
    (routeCodec.parse_dump _).trans (congrArg some (Codec.canon_nullable (fun _ => rfl) _))
  have hnodes : InvoiceNodeName.codec.list.parse (InvoiceNodeName.codec.list.dump
      s.completedNodes) = some s.completedNodes :=
    (Codec.parse_dump _ _).trans (congrArg some (Codec.canon_list _ (fun _ => rfl) _))
  have htext : ∀ t : String, Codec.string.parse (.str t) = some t := fun _ => rfl
  have hbool : ∀ b, Codec.bool.parse (.bool b) = some b := fun _ => rfl
  unfold validate
  simp only [dump, hrunId, hinvoiceId, hasOf, hstatus, hroute, hnodes, htext, hbool, h₁, h₂, h₃,
    h₄, h₅, h₆, h₇, h₈, h₉, h₁₀, h₁₁, Option.bind_eq_bind, Option.bind_some, guard,
    Option.pure_def]
  split_ifs <;> rfl

/-- A state is read back as it was dumped. -/
theorem validate_dump {s : InvoiceGraphState} (h : s.Valid) :
    validate host (dump host s) = some s := by
  rw [validate_dump_eq host h.evidence, if_pos h]

end InvoiceGraphState

/-! ## Updates -/

namespace InvoiceNodes

variable (s : InvoiceGraphState)

/-- `_completed`. -/
def completed (node : InvoiceNodeName) : Channel × Json :=
  (.completedNodes, InvoiceNodeName.codec.list.dump (s.completedNodes ++ [node]))

/-- The dictionary a node returns. -/
def returned : NodeResult → List (Channel × Json)
  | .ingest =>
    [(.status, .str "running"),
      (.route, InvoiceGraphState.routeCodec.dump (if s.duplicate then some .reject else none)),
      completed s .ingest]
  | .extract outcome extraction =>
    [(.extractionOutcome, outcome), (.extraction, InvoiceGraphState.dumpObject extraction),
      completed s .extract]
  | .validate result => [(.validation, result), completed s .validate]
  | .match3Way snapshot result =>
    [(.snapshot, InvoiceGraphState.dumpObject snapshot), (.match, result), completed s .match3Way]
  | .policy similarity taxonomy decision =>
    [(.similarity, InvoiceGraphState.dumpObject similarity), (.taxonomy, taxonomy),
      (.policy, decision), completed s .policy]
  | .gate result route =>
    [(.gate, result), (.route, .str route.text), completed s .gate]
  | .autoApprove => [completed s .autoApprove]
  | .exceptionTriage result =>
    [(.status, .str "awaiting_review"), (.route, .str "REVIEW"), (.triage, result),
      completed s .exceptionTriage]
  | .humanReview decision =>
    [(.review, decision.toJson), (.status, .str "running"), completed s .humanReview]
  | .archive => [(.status, .str "completed"), completed s .archive]
  | .reject => [(.status, .str "rejected"), completed s .reject]

end InvoiceNodes

namespace Channels

/-- Every channel takes the value that is written to it. -/
def write (c : Channels) (writes : List (Channel × Json)) : Channels :=
  writes.foldl (fun c w => Function.update c w.1 w.2) c

/-- `{**dump, **update}`. -/
def merge (c : Channels) (update : List (Channel × Json)) : Channels :=
  fun channel => ((update.find? fun w => w.1 = channel).map Prod.snd).getD (c channel)

/-- Where nothing is written twice, this is the same. -/
theorem write_eq_merge (c : Channels) {writes : List (Channel × Json)}
    (h : (writes.map Prod.fst).Nodup) : c.write writes = c.merge writes := by
  induction writes generalizing c with
  | nil => rfl
  | cons w writes ih =>
    rw [List.map_cons, List.nodup_cons] at h
    have hstep : c.write (w :: writes) = Channels.write (Function.update c w.1 w.2) writes := rfl
    rw [hstep, ih _ h.2]
    funext channel
    unfold merge
    rw [List.find?_cons]
    by_cases hchannel : w.1 = channel
    · have hnone : writes.find? (fun v => v.1 = channel) = none := by
        rw [List.find?_eq_none]
        intro v hv heq
        exact h.1 (List.mem_map.mpr ⟨v, hv, (of_decide_eq_true heq).trans hchannel.symm⟩)
      rw [hnone, decide_eq_true hchannel, ← hchannel]
      simp
    · rw [decide_eq_false hchannel, Function.update_of_ne (Ne.symm hchannel)]

end Channels

namespace InvoiceNodes

/-- A node writes each channel once. -/
theorem returned_nodup (s : InvoiceGraphState) (result : NodeResult) :
    ((returned s result).map Prod.fst).Nodup := by
  cases result <;> simp [returned, completed]

/-- The dictionary over the dump of a state is the dump of the updated state. -/
theorem merge_returned (host : Host) (s : InvoiceGraphState) (result : NodeResult) :
    Channels.merge (s.dump host) (returned s result) = (update s result).dump host := by
  funext channel
  cases result <;> cases channel <;> rfl

end InvoiceNodes

/-! ## Services -/

/-- What the services answer in a state. An object is given by its fields. -/
structure InvoiceServices where
  extract : InvoiceGraphState → List (String × Json) × Option InvoiceExtraction
  validate : InvoiceGraphState → ValidationResult
  «match» : InvoiceGraphState → Option ERPSnapshot × MatchResult
  policy : InvoiceGraphState → Option (List (String × Json)) × TaxonomyResult × PolicyResult
  gate : InvoiceGraphState → List (String × Json) × InvoiceRoute
  triage : InvoiceGraphState → List (String × Json)

namespace InvoiceServices

variable (host : Host) (services : InvoiceServices)

/-- What a node is answered in a state ; a review needs its decision. -/
def answer (node : InvoiceNodeName) (s : InvoiceGraphState) (decision : Option ReviewDecision) :
    Option NodeResult :=
  match node with
  | .ingest => some .ingest
  | .extract =>
    let (outcome, extraction) := services.extract s
    some (.extract (.obj outcome) (extraction.map (InvoiceExtraction.codec host).dump))
  | .validate => some (.validate (ValidationResult.codec.dump (services.validate s)))
  | .match3Way =>
    let (snapshot, result) := services.match s
    some (.match3Way (snapshot.map (ERPSnapshot.codec host).dump) (MatchResult.codec.dump result))
  | .policy =>
    let (similarity, taxonomy, decision) := services.policy s
    some (.policy (similarity.map Json.obj) (TaxonomyResult.codec.dump taxonomy)
      ((PolicyResult.codec host).dump decision))
  | .gate =>
    let (result, route) := services.gate s
    some (.gate (.obj result) route)
  | .autoApprove => some .autoApprove
  | .exceptionTriage => some (.exceptionTriage (.obj (services.triage s)))
  | .humanReview => decision.map .humanReview
  | .archive => some .archive
  | .reject => some .reject

end InvoiceServices

/-- What is done to a run : the engine goes on, or a person answers. -/
inductive WorkflowAction where
  | advance
  | resume (decision : ReviewDecision)
  deriving DecidableEq, Repr

/-- Where a run stands. -/
inductive Position where
  | before (node : InvoiceNodeName)
  | paused
  | ended
  deriving DecidableEq, Repr

/-- The node a run stands at. -/
def Position.node : Position → Option InvoiceNodeName
  | before node => some node
  | paused => some .humanReview
  | ended => none

@[simp] theorem Position.node_elim (next : Option InvoiceNodeName) :
    (next.elim ended before).node = next := by
  cases next <;> rfl

/-! ## LangGraph -/

/-- A run of the compiled graph. -/
structure LangGraph where
  channels : Channels
  next : Option InvoiceNodeName
  /-- The review has asked for its decision. -/
  interrupted : Bool
  /-- The nodes so far, each with the channels after it. -/
  visited : List (InvoiceNodeName × Channels)

namespace LangGraph

/-- Where a run goes after a node. -/
inductive Edge where
  | always (node : InvoiceNodeName)
  | conditional (choose : InvoiceGraphState → InvoiceNodeName)
  | final

/-- The edges of `build_invoice_graph`. -/
def edge : InvoiceNodeName → Edge
  | .ingest => .conditional fun s => if s.duplicate then .reject else .extract
  | .extract => .conditional fun s => if s.extraction.isSome then .validate else .exceptionTriage
  | .validate => .always .match3Way
  | .match3Way => .always .policy
  | .policy => .always .gate
  | .gate => .conditional fun s =>
    if s.route = some .autoApprove then .autoApprove else .exceptionTriage
  | .autoApprove => .always .archive
  | .exceptionTriage => .always .humanReview
  | .humanReview => .always .archive
  | .archive => .final
  | .reject => .final

variable (host : Host) (services : InvoiceServices)

/-- The node after an edge, chosen in the state the channels make. -/
def follow (channels : Channels) : Edge → Option (Option InvoiceNodeName)
  | .always node => some (some node)
  | .conditional choose => (InvoiceGraphState.validate host channels).map fun s => some (choose s)
  | .final => some none

/-- A node runs on the state the channels make, and writes what it returns. -/
def execute (g : LangGraph) (node : InvoiceNodeName) (decision : Option ReviewDecision) :
    Option LangGraph := do
  let s ← InvoiceGraphState.validate host g.channels
  let result ← services.answer host node s decision
  let channels := g.channels.write (InvoiceNodes.returned s result)
  let next ← follow host channels (edge node)
  return ⟨channels, next, false, g.visited ++ [(node, channels)]⟩

/-- One step ; it fails where a node does. -/
def step (g : LangGraph) : WorkflowAction → Option LangGraph
  | .advance =>
    match g.next with
    | none => some g
    | some .humanReview => some { g with interrupted := true }
    | some node => execute host services g node none
  | .resume decision =>
    if g.interrupted then execute host services g .humanReview (some decision) else some g

/-- A run that has just begun. -/
def start (s : InvoiceGraphState) : LangGraph :=
  ⟨s.dump host, some .ingest, false, []⟩

/-- A run after some actions, if none of them failed. -/
def run (s : InvoiceGraphState) (actions : List WorkflowAction) : Option LangGraph :=
  actions.foldlM (step host services) (start host s)

/-- Where a run stands. -/
def position (g : LangGraph) : Position :=
  if g.interrupted then .paused else g.next.elim .ended .before

/-- The nodes so far, each with the state after it. -/
def states (g : LangGraph) : List (InvoiceNodeName × Option InvoiceGraphState) :=
  g.visited.map fun v => (v.1, InvoiceGraphState.validate host v.2)

end LangGraph

/-! ## ADK -/

namespace AdkWorkflow

variable (host : Host) (services : InvoiceServices) (invocationId callId : String)

/-- `_step` and `apply_review` : the update is laid over the dump of the state, which is validated
and kept as the new state. -/
def runNode (node : AdkNode) (input : Option ReviewDecision) (session : AdkSession) :
    Option AdkSession := do
  let current ← InvoiceGraphState.validate host (session.state.dump host)
  let work ← node.work
  let update ← services.answer host work current input
  let result ← InvoiceGraphState.validate host
    (Channels.merge (current.dump host) (InvoiceNodes.returned current update))
  return session.append { invocationId, author := .node node, content := none,
                          route := node.route result, stateDelta := some result }

/-- The pending node, if there is one. -/
def runPending (session : AdkSession) : Option AdkSession :=
  match pending session with
  | .node .askReview _ => some (session.append (askEvent invocationId callId))
  | .node node input => runNode host services invocationId node input session
  | .waiting | .ended => some session

/-- One step ; it fails where a node does. -/
def step (session : AdkSession) : WorkflowAction → Option AdkSession
  | .advance => runPending host services invocationId callId session
  | .resume decision =>
    if pending session = .waiting then
      runPending host services invocationId callId
        (session.append (answerEvent (callId, invocationId) decision))
    else some session

/-- The session after some actions, if none of them failed. -/
def run (s : InvoiceGraphState) (actions : List WorkflowAction) : Option AdkSession :=
  actions.foldlM (step host services invocationId callId) ⟨s, []⟩

/-- The node of the contract a workflow node belongs to. -/
def nodeName : AdkNode → InvoiceNodeName
  | .askReview => .humanReview
  | node => node.work.getD .humanReview

/-- Where a session stands. -/
def position (session : AdkSession) : Position :=
  match pending session with
  | .node node _ => .before (nodeName node)
  | .waiting => .paused
  | .ended => .ended

/-- The node whose work an event is, with the state it left. -/
def visit (e : AdkEvent) : Option (InvoiceNodeName × InvoiceGraphState) :=
  match e.author, e.stateDelta with
  | .node node, some s => node.work.map fun work => (work, s)
  | _, _ => none

/-- The nodes so far, each with the state after it. -/
def states (session : AdkSession) : List (InvoiceNodeName × InvoiceGraphState) :=
  session.events.filterMap visit

end AdkWorkflow

/-! ## One node in both -/

/-- The answers of a node are objects. -/
def NodeResult.objects : NodeResult → List (Option Json)
  | .extract outcome extraction => [some outcome, extraction]
  | .validate result => [some result]
  | .match3Way snapshot result => [snapshot, some result]
  | .policy similarity taxonomy decision => [similarity, some taxonomy, some decision]
  | .gate result _ => [some result]
  | .exceptionTriage result => [some result]
  | _ => []

/-- A decision is stored as an object. -/
theorem decision_isObject (decision : ReviewDecision) : decision.toJson.isObject :=
  rfl

/-- A node that completes for the first time leaves a valid state. -/
theorem InvoiceGraphState.Valid.update {s : InvoiceGraphState} (h : s.Valid) {result : NodeResult}
    (hobjects : ∀ j ∈ result.objects, j.all Json.isObject) (hnew : result.node ∉ s.completedNodes) :
    (InvoiceNodes.update s result).Valid := by
  have hevidence := h.evidence
  have hprogress := h.progress
  simp only [InvoiceGraphState.evidence, List.forall_mem_cons] at hevidence
  unfold InvoiceGraphState.validProgress at hprogress
  rw [Bool.and_eq_true, Bool.and_eq_true, Bool.or_eq_true, Bool.or_eq_true, decide_eq_true_eq,
    decide_eq_true_eq, decide_eq_true_eq, decide_eq_true_eq, decide_eq_true_eq] at hprogress
  obtain ⟨⟨hnodup, harchive⟩, hreject⟩ := hprogress
  have hcompleted : (InvoiceNodes.update s result).completedNodes.Nodup := by
    change (s.completedNodes ++ [result.node]).Nodup
    rw [← List.concat_eq_append]
    exact hnodup.concat hnew
  refine ⟨?_, ?_, ?_, ?_, ?_, ?_⟩
  · cases result <;> exact h.traceId
  · cases result <;> exact h.rawRef
  · cases result <;> exact h.contentHash
  · cases result <;> exact h.contentType
  · simp only [InvoiceGraphState.evidence, List.forall_mem_cons]
    cases result <;>
      simp_all [NodeResult.objects, InvoiceNodes.update, InvoiceNodes.fields, decision_isObject]
  · unfold InvoiceGraphState.validProgress
    rw [Bool.and_eq_true, Bool.and_eq_true, Bool.or_eq_true, Bool.or_eq_true, decide_eq_true_eq,
      decide_eq_true_eq, decide_eq_true_eq, decide_eq_true_eq, decide_eq_true_eq]
    refine ⟨⟨hcompleted, ?_⟩, ?_⟩
    · cases result <;> simp_all [InvoiceNodes.update, InvoiceNodes.fields, NodeResult.node]
    · cases result <;> simp_all [InvoiceNodes.update, InvoiceNodes.fields, NodeResult.node]

namespace LangGraph

/-- The node after a node that left a state. -/
def nextOf (node : InvoiceNodeName) (duplicate extracted approved : Bool) :
    Option InvoiceNodeName :=
  match node with
  | .ingest => some (if duplicate then .reject else .extract)
  | .extract => some (if extracted then .validate else .exceptionTriage)
  | .validate => some .match3Way
  | .match3Way => some .policy
  | .policy => some .gate
  | .gate => some (if approved then .autoApprove else .exceptionTriage)
  | .autoApprove => some .archive
  | .exceptionTriage => some .humanReview
  | .humanReview => some .archive
  | .archive => none
  | .reject => none

/-- The node after a node that left the state. -/
def nextIn (node : InvoiceNodeName) (s : InvoiceGraphState) : Option InvoiceNodeName :=
  nextOf node s.duplicate s.extraction.isSome (s.route = some .autoApprove)

/-- Only the gate sends an invoice to approval, by its route. -/
theorem nextIn_autoApprove {node : InvoiceNodeName} {s : InvoiceGraphState}
    (h : nextIn node s = some .autoApprove) : node = .gate ∧ s.route = some .autoApprove := by
  unfold nextIn nextOf at h
  cases node with
  | gate =>
    refine ⟨rfl, ?_⟩
    dsimp only at h
    split_ifs at h with hroute
    · exact of_decide_eq_true hroute
    · cases h
  | ingest | extract =>
    dsimp only at h
    split_ifs at h <;> cases h
  | _ => cases h

variable {host : Host} {services : InvoiceServices}

/-- The edges read the state from the channels. -/
theorem follow_dump {s : InvoiceGraphState} (h : s.Valid) (node : InvoiceNodeName) :
    follow host (s.dump host) (edge node) = some (nextIn node s) := by
  have hvalidate := InvoiceGraphState.validate_dump host h
  cases node <;> simp [follow, edge, nextIn, nextOf, hvalidate]

/-- A node writes what its result changes of the state. -/
theorem execute_eq {g : LangGraph} {s : InvoiceGraphState} (hchannels : g.channels = s.dump host)
    (hvalid : s.Valid) {node : InvoiceNodeName} {decision : Option ReviewDecision}
    {result : NodeResult} (hanswer : services.answer host node s decision = some result)
    (hafter : (InvoiceNodes.update s result).Valid) :
    execute host services g node decision =
      some ⟨(InvoiceNodes.update s result).dump host, nextIn node (InvoiceNodes.update s result),
        false, g.visited ++ [(node, (InvoiceNodes.update s result).dump host)]⟩ := by
  have hwrite : Channels.write (s.dump host) (InvoiceNodes.returned s result) =
      (InvoiceNodes.update s result).dump host := by
    rw [Channels.write_eq_merge _ (InvoiceNodes.returned_nodup s result),
      InvoiceNodes.merge_returned]
  unfold execute
  simp only [hchannels, InvoiceGraphState.validate_dump host hvalid, hanswer, hwrite,
    follow_dump hafter, Option.bind_eq_bind, Option.bind_some, Option.pure_def]

/-- A paused graph is interrupted. -/
theorem interrupted_of_paused {g : LangGraph} (h : g.position = .paused) :
    g.interrupted = true := by
  unfold position at h
  split_ifs at h with hi
  · exact hi
  · cases hnext : g.next <;> rw [hnext] at h <;> cases h

/-- A graph that is not paused goes on at its position. -/
theorem next_of_position {g : LangGraph} (h : g.position ≠ .paused) :
    g.next = g.position.node := by
  have hi : ¬g.interrupted = true := fun hi => h (if_pos hi)
  rw [position, if_neg hi, Position.node_elim]

/-- One step runs the next node, the review apart. -/
theorem step_advance {g : LangGraph} {node : InvoiceNodeName} (hnext : g.next = some node)
    (hnode : node ≠ .humanReview) :
    step host services g .advance = execute host services g node none := by
  unfold step
  rw [hnext]
  cases node with
  | humanReview => exact absurd rfl hnode
  | _ => rfl

/-- The next node is run on a valid state and leaves one. -/
theorem step_dump {s : InvoiceGraphState} (hvalid : s.Valid) {node : InvoiceNodeName}
    (hnode : node ≠ .humanReview) {result : NodeResult}
    (hanswer : services.answer host node s none = some result)
    (hafter : (InvoiceNodes.update s result).Valid) (visited : List (InvoiceNodeName × Channels)) :
    step host services ⟨s.dump host, some node, false, visited⟩ .advance =
      some ⟨(InvoiceNodes.update s result).dump host, nextIn node (InvoiceNodes.update s result),
        false, visited ++ [(node, (InvoiceNodes.update s result).dump host)]⟩ :=
  (step_advance rfl hnode).trans (execute_eq rfl hvalid hanswer hafter)

/-- The triage may leave any state : its edge does not read it. -/
theorem run_to_triage {s : InvoiceGraphState} (hvalid : s.Valid) {ingested extracted triaged :
    NodeResult} (hingest : services.answer host .ingest s none = some ingested)
    (hvalid' : (InvoiceNodes.update s ingested).Valid)
    (hextract : services.answer host .extract (InvoiceNodes.update s ingested) none =
      some extracted)
    (hvalid'' : (InvoiceNodes.update (InvoiceNodes.update s ingested) extracted).Valid)
    (htriage : services.answer host .exceptionTriage
      (InvoiceNodes.update (InvoiceNodes.update s ingested) extracted) none = some triaged)
    (hnext : nextIn .ingest (InvoiceNodes.update s ingested) = some .extract)
    (hnext' : nextIn .extract (InvoiceNodes.update (InvoiceNodes.update s ingested) extracted) =
      some .exceptionTriage) :
    (run host services s [.advance, .advance, .advance]).isSome := by
  generalize hs' : InvoiceNodes.update s ingested = s' at *
  generalize hs'' : InvoiceNodes.update s' extracted = s'' at *
  have hfirst := @step_dump host services s hvalid .ingest (by decide) ingested hingest
    (hs' ▸ hvalid') []
  have hsecond := @step_dump host services s' hvalid' .extract (by decide) extracted hextract
    (hs'' ▸ hvalid'')
  rw [hs', hnext] at hfirst
  rw [hs'', hnext'] at hsecond
  rw [run, start, List.foldlM_cons, hfirst, Option.bind_eq_bind, Option.bind_some,
    List.foldlM_cons, hsecond, Option.bind_eq_bind, Option.bind_some, List.foldlM_cons,
    step_advance rfl (by decide), execute]
  simp only [InvoiceGraphState.validate_dump host hvalid'', htriage, edge, follow,
    Option.bind_eq_bind, Option.bind_some, Option.pure_def, List.foldlM_nil, Option.isSome_some]

end LangGraph

namespace AdkWorkflow

variable {host : Host} {services : InvoiceServices} {invocationId callId : String}

/-- A node that is pending is run. -/
theorem runPending_node {session : AdkSession} {node : AdkNode} {input : Option ReviewDecision}
    (hpending : pending session = .node node input) (hnode : node ≠ .askReview) :
    runPending host services invocationId callId session =
      runNode host services invocationId node input session := by
  unfold runPending
  rw [hpending]
  cases node with
  | askReview => exact absurd rfl hnode
  | _ => rfl

/-- A node of work appends its event and its result. -/
theorem runNode_eq {session : AdkSession} (hvalid : session.state.Valid) {node : AdkNode}
    {work : InvoiceNodeName} (hwork : node.work = some work) {input : Option ReviewDecision}
    {result : NodeResult} (hanswer : services.answer host work session.state input = some result)
    (hafter : (InvoiceNodes.update session.state result).Valid) :
    runNode host services invocationId node input session =
      some (session.append
        { invocationId, author := .node node, content := none
          route := node.route (InvoiceNodes.update session.state result)
          stateDelta := some (InvoiceNodes.update session.state result) }) := by
  unfold runNode
  simp only [InvoiceGraphState.validate_dump host hvalid, hwork, hanswer,
    InvoiceNodes.merge_returned, InvoiceGraphState.validate_dump host hafter,
    Option.bind_eq_bind, Option.bind_some, Option.pure_def]

/-- A node that leaves an invalid state fails. -/
theorem runNode_eq_none {session : AdkSession} (hvalid : session.state.Valid) {node : AdkNode}
    {work : InvoiceNodeName} (hwork : node.work = some work) {input : Option ReviewDecision}
    {result : NodeResult} (hanswer : services.answer host work session.state input = some result)
    (hobjects : ∀ j ∈ (InvoiceNodes.update session.state result).evidence, j.all Json.isObject)
    (hafter : ¬(InvoiceNodes.update session.state result).Valid) :
    runNode host services invocationId node input session = none := by
  unfold runNode
  simp only [InvoiceGraphState.validate_dump host hvalid, hwork, hanswer,
    InvoiceNodes.merge_returned, InvoiceGraphState.validate_dump_eq host hobjects, if_neg hafter,
    Option.bind_eq_bind, Option.bind_some, Option.bind_none]

/-- After a node both builds stand before the same one. -/
theorem position_append {session : AdkSession} {e : AdkEvent} {node : AdkNode}
    {work : InvoiceNodeName} {s : InvoiceGraphState} (hauthor : e.author = .node node)
    (hroute : e.route = node.route s) (hwork : node.work = some work)
    (htruthy : work = .extract → truthy s.extraction = s.extraction.isSome) :
    position (session.append e) = (LangGraph.nextIn work s).elim .ended .before := by
  have hnext : (node.next (node.route s)).elim Position.ended (fun m => .before (nodeName m)) =
      (LangGraph.nextIn work s).elim .ended .before := by
    unfold LangGraph.nextIn LangGraph.nextOf
    cases node with
    | askReview => cases hwork
    | ingest =>
      cases hwork
      simp only [AdkNode.route]
      cases s.duplicate <;> rfl
    | extract =>
      cases hwork
      simp only [AdkNode.route]
      rw [htruthy rfl]
      cases s.extraction.isSome <;> rfl
    | gate =>
      cases hwork
      simp only [AdkNode.route]
      by_cases hroute : s.route = some .autoApprove
      · simp only [hroute, if_true, decide_true]
        rfl
      · simp only [hroute, if_false, decide_false]
        rfl
    | _ =>
      cases hwork
      rfl
  unfold position pending
  rw [AdkSession.events_append, List.getLast?_concat]
  dsimp only
  rw [hauthor, hroute, ← hnext]
  cases node with
  | askReview => cases hwork
  | _ =>
    dsimp only
    cases AdkNode.next _ _ <;> rfl

/-- The answer to a review is delivered before anything else is done. -/
def Settled (session : AdkSession) : Prop :=
  ∀ node input, pending session = .node node input → node ≠ .applyReview ∧ input = none

/-- The event of a node settles what was pending. -/
theorem settled_append {session : AdkSession} {e : AdkEvent} {node : AdkNode}
    (hauthor : e.author = .node node) : Settled (session.append e) := by
  intro next input h
  unfold pending at h
  rw [AdkSession.events_append, List.getLast?_concat] at h
  dsimp only at h
  rw [hauthor] at h
  have happly : ∀ route, node ≠ .askReview → node.next route ≠ some .applyReview := by
    intro route hne
    cases node <;> cases route with
    | none => first | decide | exact absurd rfl hne
    | some r => cases r <;> first | decide | exact absurd rfl hne
  cases node with
  | askReview => cases h
  | _ =>
    dsimp only at h
    split at h
    · rename_i m hm
      obtain ⟨rfl, rfl⟩ := AdkPending.node.inj h
      refine ⟨?_, rfl⟩
      rintro rfl
      exact happly _ (by decide) hm
    · cases h

end AdkWorkflow

/-! ## Paths -/

/-- The paths of the workflow. -/
def workflowPaths : List (List InvoiceNodeName) :=
  [[.ingest, .reject],
    [.ingest, .extract, .exceptionTriage, .humanReview, .archive],
    [.ingest, .extract, .validate, .match3Way, .policy, .gate, .autoApprove, .archive],
    [.ingest, .extract, .validate, .match3Way, .policy, .gate, .exceptionTriage, .humanReview,
      .archive]]

/-- The nodes so far begin one of the paths, and the next node is the next one on it. -/
def OnPath (nodes : List InvoiceNodeName) (next : Option InvoiceNodeName) : Prop :=
  ∃ path ∈ workflowPaths, nodes = path.take nodes.length ∧ next = path[nodes.length]?

/-- No path visits a node twice. -/
theorem workflowPaths_nodup : ∀ path ∈ workflowPaths, path.Nodup := by
  decide

/-- Nodes on a path are distinct, and the start of one of the paths. -/
theorem OnPath.along {nodes : List InvoiceNodeName} {next : Option InvoiceNodeName}
    (h : OnPath nodes next) : nodes.Nodup ∧ ∃ path ∈ workflowPaths, nodes <+: path := by
  obtain ⟨path, hpath, hnodes, -⟩ := h
  have hprefix : nodes <+: path := by
    rw [hnodes]
    exact List.take_prefix _ _
  exact ⟨(workflowPaths_nodup path hpath).sublist hprefix.sublist, path, hpath, hprefix⟩

/-- The empty run is on a path. -/
theorem OnPath.start : OnPath [] (some .ingest) :=
  ⟨[.ingest, .reject], by decide, by decide, by decide⟩

/-- The next node was not visited. -/
theorem OnPath.not_mem {nodes : List InvoiceNodeName} {node : InvoiceNodeName}
    (h : OnPath nodes (some node)) : node ∉ nodes := by
  obtain ⟨path, hpath, hnodes, hnext⟩ := h
  intro hmem
  have hnodup := workflowPaths_nodup path hpath
  obtain ⟨hlt, hget⟩ := List.getElem?_eq_some_iff.mp hnext.symm
  rw [hnodes, List.mem_take_iff_getElem] at hmem
  obtain ⟨i, hi, hi'⟩ := hmem
  have heq := (List.Nodup.getElem_inj_iff hnodup).mp (hi'.trans hget.symm)
  omega

/-- Whichever way an edge goes, it goes along one of the paths. -/
theorem OnPath.next {nodes : List InvoiceNodeName} {node : InvoiceNodeName}
    (h : OnPath nodes (some node)) (duplicate extracted approved : Bool) :
    OnPath (nodes ++ [node]) (LangGraph.nextOf node duplicate extracted approved) := by
  have hstep : ∀ path ∈ workflowPaths, ∀ k < 10, ∀ node ∈ path[k]?, ∀ a b c : Bool,
      ∃ path' ∈ workflowPaths, path'.take (k + 1) = path.take (k + 1) ∧
        LangGraph.nextOf node a b c = path'[k + 1]? := by
    decide
  obtain ⟨path, hpath, hnodes, hnext⟩ := h
  obtain ⟨hlt, hget⟩ := List.getElem?_eq_some_iff.mp hnext.symm
  have hlength : ∀ path ∈ workflowPaths, path.length ≤ 10 := by decide
  obtain ⟨path', hpath', htake, hnext'⟩ := hstep path hpath nodes.length
    (hlt.trans_le (hlength path hpath)) node hnext.symm duplicate extracted approved
  refine ⟨path', hpath', ?_, ?_⟩
  · rw [List.length_append, List.length_singleton, htake, List.take_add_one, ← hnodes, ← hnext]
    rfl
  · rw [List.length_append, List.length_singleton, hnext']

/-! ## The simulation -/

/-- `AutoApprove` comes right after a `Gate` that chose it. -/
def ApprovedByGate (states : List (InvoiceNodeName × InvoiceGraphState)) : Prop :=
  ∀ (before : List (InvoiceNodeName × InvoiceGraphState)) (s : InvoiceGraphState)
    (after : List (InvoiceNodeName × InvoiceGraphState)),
    states = before ++ (.autoApprove, s) :: after →
      ∃ (before' : List (InvoiceNodeName × InvoiceGraphState)) (g : InvoiceGraphState),
        before = before' ++ [(InvoiceNodeName.gate, g)] ∧ g.route = some .autoApprove

/-- The last node was a `Gate` that chose to approve. -/
def GateApproved (states : List (InvoiceNodeName × InvoiceGraphState)) : Prop :=
  ∃ (before : List (InvoiceNodeName × InvoiceGraphState)) (g : InvoiceGraphState),
    states = before ++ [(InvoiceNodeName.gate, g)] ∧ g.route = some .autoApprove

/-- One more node, and the gate's approval if it is the approval. -/
theorem ApprovedByGate.append {states : List (InvoiceNodeName × InvoiceGraphState)}
    (h : ApprovedByGate states) {v : InvoiceNodeName × InvoiceGraphState}
    (hv : v.1 = .autoApprove → GateApproved states) : ApprovedByGate (states ++ [v]) := by
  intro before s after heq
  rcases List.eq_nil_or_concat after with rfl | ⟨after', last, rfl⟩
  · obtain ⟨rfl, hlast⟩ := List.append_inj' heq rfl
    rw [List.singleton_inj.mp hlast] at hv
    exact hv rfl
  · have heq' : states ++ [v] = (before ++ (.autoApprove, s) :: after') ++ [last] := by
      rw [heq, List.concat_eq_append]
      simp
    obtain ⟨hstates, -⟩ := List.append_inj' heq' rfl
    exact h before s after' hstates

/-- Both builds stand at the same place, with the same state, and came there on one of the paths. -/
structure Agree (host : Host) (g : LangGraph) (session : AdkSession) : Prop where
  channels : g.channels = session.state.dump host
  valid : session.state.Valid
  position : g.position = AdkWorkflow.position session
  asked : g.interrupted = true → g.next = some .humanReview
  settled : AdkWorkflow.Settled session
  states : g.states host = (AdkWorkflow.states session).map fun v => (v.1, some v.2)
  nodes : (AdkWorkflow.states session).map Prod.fst = session.state.completedNodes
  path : OnPath session.state.completedNodes g.position.node
  approved : ApprovedByGate (AdkWorkflow.states session)
  gate : g.position.node = some .autoApprove → GateApproved (AdkWorkflow.states session)

namespace Agree

variable {host : Host}

/-- Two new runs agree. -/
theorem start {s : InvoiceGraphState} (hvalid : s.Valid) (hfresh : s.completedNodes = []) :
    Agree host (LangGraph.start host s) ⟨s, []⟩ where
  channels := rfl
  valid := hvalid
  position := rfl
  asked := nofun
  settled := by
    intro node input h
    obtain ⟨rfl, rfl⟩ := AdkPending.node.inj h
    exact ⟨by decide, rfl⟩
  states := rfl
  nodes := hfresh.symm
  path := by
    change OnPath s.completedNodes (some .ingest)
    rw [hfresh]
    exact .start
  approved := by
    intro before s after h
    simp [AdkWorkflow.states] at h
  gate := by
    intro h
    cases h

end Agree

/-- A service answers with a result of its own node, whose JSON values are objects. -/
theorem answer_node {host : Host} {services : InvoiceServices} {node : InvoiceNodeName}
    {s : InvoiceGraphState} {decision : Option ReviewDecision} {result : NodeResult}
    (h : services.answer host node s decision = some result) :
    result.node = node ∧ (∀ j ∈ result.objects, j.all Json.isObject) ∧
      (node = .extract → truthy (InvoiceNodes.update s result).extraction =
        (InvoiceNodes.update s result).extraction.isSome) := by
  have hextraction : ∀ e : Option InvoiceExtraction,
      (e.map (InvoiceExtraction.codec host).dump).all Json.isObject ∧
        truthy (e.map (InvoiceExtraction.codec host).dump) =
          (e.map (InvoiceExtraction.codec host).dump).isSome := by
    intro e
    cases e <;> exact ⟨rfl, rfl⟩
  have hsnapshot : ∀ e : Option ERPSnapshot,
      (e.map (ERPSnapshot.codec host).dump).all Json.isObject := by
    intro e
    cases e <;> rfl
  have hsimilarity : ∀ e : Option (List (String × Json)), (e.map Json.obj).all Json.isObject := by
    intro e
    cases e <;> rfl
  have hsome : ∀ fields : List (String × Json), (some (Json.obj fields)).all Json.isObject :=
    fun _ => rfl
  cases node with
  | extract =>
    rw [← Option.some.inj h]
    simp only [NodeResult.objects, List.forall_mem_cons]
    exact ⟨rfl, ⟨rfl, (hextraction _).1, by simp⟩, fun _ => (hextraction _).2⟩
  | match3Way =>
    rw [← Option.some.inj h]
    simp only [NodeResult.objects, List.forall_mem_cons]
    exact ⟨rfl, ⟨hsnapshot _, rfl, by simp⟩, nofun⟩
  | policy =>
    rw [← Option.some.inj h]
    simp only [NodeResult.objects, List.forall_mem_cons]
    exact ⟨rfl, ⟨hsimilarity _, rfl, rfl, by simp⟩, nofun⟩
  | humanReview =>
    obtain ⟨d, -, rfl⟩ := Option.map_eq_some_iff.mp h
    exact ⟨rfl, by simp [NodeResult.objects], nofun⟩
  | validate =>
    rw [← Option.some.inj h]
    simp only [NodeResult.objects, List.forall_mem_cons]
    exact ⟨rfl, ⟨rfl, by simp⟩, nofun⟩
  | gate | exceptionTriage =>
    rw [← Option.some.inj h]
    simp only [NodeResult.objects, List.forall_mem_cons]
    exact ⟨rfl, ⟨hsome _, by simp⟩, nofun⟩
  | ingest | autoApprove | archive | reject =>
    rw [← Option.some.inj h]
    exact ⟨rfl, by simp [NodeResult.objects], nofun⟩

/-- Every node has an answer, and the review has one for every decision. -/
theorem answer_some (host : Host) (services : InvoiceServices) {node : InvoiceNodeName}
    (s : InvoiceGraphState) {decision : Option ReviewDecision}
    (h : node = .humanReview → decision.isSome) :
    ∃ result, services.answer host node s decision = some result := by
  cases node with
  | humanReview =>
    obtain ⟨d, rfl⟩ := Option.isSome_iff_exists.mp (h rfl)
    exact ⟨_, rfl⟩
  | _ => exact ⟨_, rfl⟩

namespace Agree

variable {host : Host} (services : InvoiceServices) (invocationId callId : String)

/-- Both run the node they stand at. -/
theorem execute {g : LangGraph} {session : AdkSession} (h : Agree host g session)
    (session' : AdkSession) (hstate : session'.state = session.state)
    (hstates : AdkWorkflow.states session' = AdkWorkflow.states session) {node : AdkNode}
    {work : InvoiceNodeName} (hwork : node.work = some work) (hnode : g.position.node = some work)
    (decision : Option ReviewDecision) (hdecision : work = .humanReview → decision.isSome) :
    ∃ g' session'', LangGraph.execute host services g work decision = some g' ∧
      AdkWorkflow.runNode host services invocationId node decision session' = some session'' ∧
        Agree host g' session'' := by
  obtain ⟨result, hanswer⟩ := answer_some host services session.state hdecision
  obtain ⟨hresult, hobjects, htruthy⟩ := answer_node hanswer
  have hpath := h.path
  rw [hnode] at hpath
  have hafter : (InvoiceNodes.update session.state result).Valid :=
    h.valid.update hobjects (by rw [hresult]; exact hpath.not_mem)
  have hg := LangGraph.execute_eq h.channels h.valid hanswer hafter
  obtain ⟨s, hs⟩ : ∃ s, InvoiceNodes.update session.state result = s := ⟨_, rfl⟩
  have hcompleted : s.completedNodes = session.state.completedNodes ++ [work] := by
    rw [← hs, ← hresult]
    rfl
  rw [← hstate] at hanswer hafter
  have ha := @AdkWorkflow.runNode_eq host services invocationId session' (hstate ▸ h.valid) node
    work hwork decision result hanswer hafter
  rw [hstate, hs] at ha hafter
  rw [hs] at hg htruthy
  refine ⟨_, _, hg, ha, ?_⟩
  have hposition : LangGraph.position ⟨s.dump host, LangGraph.nextIn work s, false,
      g.visited ++ [(work, s.dump host)]⟩ = (LangGraph.nextIn work s).elim .ended .before := rfl
  have hvisit : AdkWorkflow.states (session'.append
      { invocationId, author := .node node, content := none, route := node.route s,
        stateDelta := some s }) = AdkWorkflow.states session ++ [(work, s)] := by
    have hevent : AdkWorkflow.visit { invocationId, author := .node node, content := none,
                                      route := node.route s, stateDelta := some s } =
        some (work, s) := congrArg (Option.map fun w => (w, s)) hwork
    unfold AdkWorkflow.states at hstates ⊢
    rw [AdkSession.events_append, List.filterMap_append, hstates]
    simp [hevent]
  refine
    { channels := by rw [AdkSession.state_append, Option.getD_some]
      valid := by rwa [AdkSession.state_append, Option.getD_some]
      position := (AdkWorkflow.position_append rfl rfl hwork htruthy).symm
      asked := nofun
      settled := AdkWorkflow.settled_append rfl
      states := ?_
      nodes := ?_
      path := ?_
      approved := ?_
      gate := ?_ }
  · rw [hvisit, List.map_append, ← h.states, LangGraph.states, List.map_append, LangGraph.states]
    simp [InvoiceGraphState.validate_dump host hafter]
  · rw [hvisit, List.map_append, h.nodes, AdkSession.state_append, Option.getD_some, hcompleted]
    rfl
  · rw [AdkSession.state_append, Option.getD_some, hposition, Position.node_elim, hcompleted]
    exact hpath.next _ _ _
  · rw [hvisit]
    refine h.approved.append fun happrove => h.gate ?_
    rw [hnode]
    exact congrArg some happrove
  · rw [hposition, Position.node_elim, hvisit]
    intro happrove
    obtain ⟨hgate, hroute⟩ := LangGraph.nextIn_autoApprove happrove
    exact ⟨_, s, by rw [hgate], hroute⟩

/-- A review asks in both. -/
theorem ask {g : LangGraph} {session : AdkSession} (h : Agree host g session)
    (hnode : g.position.node = some .humanReview) :
    Agree host { g with interrupted := true }
      (session.append (askEvent invocationId callId)) := by
  have hstate : (session.append (askEvent invocationId callId)).state = session.state :=
    AdkSession.state_append _ _
  have hpending : pending (session.append (askEvent invocationId callId)) = .waiting := by
    rw [pending, AdkSession.events_append, List.getLast?_concat]
    rfl
  have hstates : AdkWorkflow.states (session.append (askEvent invocationId callId)) =
      AdkWorkflow.states session := by
    rw [AdkWorkflow.states, AdkSession.events_append, List.filterMap_append]
    exact List.append_nil _
  refine
    { channels := by rw [hstate]; exact h.channels
      valid := by rw [hstate]; exact h.valid
      position := by rw [AdkWorkflow.position, hpending]; rfl
      asked := fun _ => ?_
      settled := fun node input hp => by rw [hpending] at hp; cases hp
      states := by rw [hstates]; exact h.states
      nodes := by rw [hstates, hstate]; exact h.nodes
      path := by
        have hpath := h.path
        rw [hnode] at hpath
        rw [hstate]
        exact hpath
      approved := by rw [hstates]; exact h.approved
      gate := by
        intro hgate
        cases hgate }
  by_cases hinterrupted : g.interrupted = true
  · exact h.asked hinterrupted
  · unfold LangGraph.position at hnode
    rwa [if_neg hinterrupted, Position.node_elim] at hnode

/-- One action is the same in both. -/
theorem step {g : LangGraph} {session : AdkSession} (h : Agree host g session)
    (action : WorkflowAction) :
    ∃ g' session', LangGraph.step host services g action = some g' ∧
      AdkWorkflow.step host services invocationId callId session action = some session' ∧
        Agree host g' session' := by
  have hposition := h.position
  cases action with
  | advance =>
    cases hpending : pending session with
    | node node input =>
      obtain ⟨hnot, rfl⟩ := h.settled node input hpending
      rw [AdkWorkflow.position, hpending] at hposition
      have hnode : g.position.node = some (AdkWorkflow.nodeName node) := by rw [hposition]; rfl
      have hnext : g.next = some (AdkWorkflow.nodeName node) := by
        rw [LangGraph.next_of_position (by rw [hposition]; nofun), hnode]
      by_cases hask : node = .askReview
      · subst hask
        refine ⟨_, _, ?_, ?_, h.ask invocationId callId hnode⟩
        · unfold LangGraph.step
          rw [hnext]
          rfl
        · unfold AdkWorkflow.step AdkWorkflow.runPending
          rw [hpending]
      · have hwork : node.work = some (AdkWorkflow.nodeName node) := by
          cases node <;> first | rfl | exact absurd rfl hask
        have hreview : AdkWorkflow.nodeName node ≠ .humanReview := by
          cases node <;> first | decide | exact absurd rfl hask | exact absurd rfl hnot
        obtain ⟨g', session', hg, ha, hagree⟩ := h.execute services invocationId session rfl rfl
          hwork hnode none fun heq => absurd heq hreview
        exact ⟨g', session', (LangGraph.step_advance hnext hreview).trans hg,
          (AdkWorkflow.runPending_node hpending hask).trans ha, hagree⟩
    | waiting =>
      rw [AdkWorkflow.position, hpending] at hposition
      have hinterrupted := LangGraph.interrupted_of_paused hposition
      have hnext := h.asked hinterrupted
      refine ⟨g, session, ?_, ?_, h⟩
      · obtain ⟨channels, next, interrupted, visited⟩ := g
        obtain rfl : interrupted = true := hinterrupted
        obtain rfl : next = some .humanReview := hnext
        rfl
      · unfold AdkWorkflow.step AdkWorkflow.runPending
        rw [hpending]
    | ended =>
      rw [AdkWorkflow.position, hpending] at hposition
      have hnext : g.next = none := by
        rw [LangGraph.next_of_position (by rw [hposition]; nofun), hposition]
        rfl
      refine ⟨g, session, ?_, ?_, h⟩
      · unfold LangGraph.step
        rw [hnext]
      · unfold AdkWorkflow.step AdkWorkflow.runPending
        rw [hpending]
  | resume decision =>
    by_cases hwaiting : pending session = .waiting
    · rw [AdkWorkflow.position, hwaiting] at hposition
      have hpending : pending (session.append (answerEvent (callId, invocationId) decision)) =
          .node .applyReview (some decision) := by
        rw [pending, AdkSession.events_append, List.getLast?_concat]
        rfl
      have hstates : AdkWorkflow.states
          (session.append (answerEvent (callId, invocationId) decision)) =
            AdkWorkflow.states session := by
        rw [AdkWorkflow.states, AdkSession.events_append, List.filterMap_append]
        exact List.append_nil _
      obtain ⟨g', session', hg, ha, hagree⟩ := h.execute services invocationId
        (session.append (answerEvent (callId, invocationId) decision))
        (AdkSession.state_append _ _) hstates
        (rfl : AdkNode.work .applyReview = some .humanReview) (by rw [hposition]; rfl)
        (some decision) fun _ => rfl
      refine ⟨g', session', (if_pos (LangGraph.interrupted_of_paused hposition)).trans hg, ?_,
        hagree⟩
      exact (if_pos hwaiting).trans
        ((AdkWorkflow.runPending_node hpending (by decide)).trans ha)
    · have hnot : ¬g.interrupted = true := by
        intro hi
        have hpaused : g.position = .paused := if_pos hi
        rw [hpaused, AdkWorkflow.position] at hposition
        split at hposition
        · cases hposition
        · exact hwaiting ‹_›
        · cases hposition
      exact ⟨g, session, if_neg hnot, if_neg hwaiting, h⟩

/-- So are all of them. -/
theorem foldl {g : LangGraph} {session : AdkSession} (h : Agree host g session) :
    ∀ actions : List WorkflowAction,
      ∃ g' session', actions.foldlM (LangGraph.step host services) g = some g' ∧
        actions.foldlM (AdkWorkflow.step host services invocationId callId) session =
          some session' ∧ Agree host g' session' := by
  intro actions
  induction actions generalizing g session with
  | nil => exact ⟨g, session, rfl, rfl, h⟩
  | cons action actions ih =>
    obtain ⟨g', session', hg, ha, hagree⟩ := h.step services invocationId callId action
    rw [List.foldlM_cons, List.foldlM_cons, hg, ha]
    exact ih hagree

end Agree

/-- Whatever the services answer and a person decides, a run of a state in which no node has
completed never fails, stands at the same place with the same state in both builds, and left the
same states after the same nodes ; these begin one of the paths, without repetition, and
`AutoApprove` comes right after a `Gate` that chose it. -/
theorem workflows_agree (host : Host) (services : InvoiceServices) (invocationId callId : String)
    {s : InvoiceGraphState} (hvalid : s.Valid) (hfresh : s.completedNodes = [])
    (actions : List WorkflowAction) :
    ∃ g session, LangGraph.run host services s actions = some g ∧
      AdkWorkflow.run host services invocationId callId s actions = some session ∧
      g.position = AdkWorkflow.position session ∧
      InvoiceGraphState.validate host g.channels = some session.state ∧
      g.states host = (AdkWorkflow.states session).map (fun v => (v.1, some v.2)) ∧
      (AdkWorkflow.states session).map Prod.fst = session.state.completedNodes ∧
      session.state.completedNodes.Nodup ∧
      (∃ path ∈ workflowPaths, session.state.completedNodes <+: path) ∧
      ApprovedByGate (AdkWorkflow.states session) := by
  obtain ⟨g, session, hg, ha, h⟩ :=
    (@Agree.start host s hvalid hfresh).foldl services invocationId callId actions
  obtain ⟨hnodup, hpath⟩ := h.path.along
  refine ⟨g, session, hg, ha, h.position, ?_, h.states, h.nodes, hnodup, hpath, h.approved⟩
  rw [h.channels, InvoiceGraphState.validate_dump host h.valid]

/-! ## A sample run -/

namespace Workflows

/-- A digest. -/
def sampleDigest : Sha256 :=
  Host.digestOf 0

/-- Services that cannot read the invoice, and leave it to a review. -/
def sampleServices : InvoiceServices where
  extract _ := ([("status", .str "ESCALATED")], none)
  validate _ := ⟨⟨.pass, sampleDigest, sampleDigest, .default, []⟩, by decide⟩
  «match» _ := (none, ⟨⟨.incomplete, false, none, none, sampleDigest, none, sampleDigest, .default,
    [], []⟩, by decide⟩)
  policy _ := (none, ⟨⟨.clean, [], [], [], sampleDigest, none, none, none, none, sampleDigest,
    .default⟩, by decide⟩, ⟨⟨.review, .unknown, none, none,
      [⟨.unknownAmount, PolicyReason.unknownAmount.field⟩], 0, sampleDigest, sampleDigest,
      .default⟩, by decide⟩)
  gate _ := ([("route", .str "REVIEW")], .review)
  triage _ := [("recommendation", .str "REVIEW")]

/-- The state of a run that has just begun. -/
def sampleState : InvoiceGraphState :=
  { InvoiceGraphState.initial 1 Adk.sampleLoaded with contentHash := sampleDigest.val }

/-- The sample state is valid. -/
theorem sampleState_valid : sampleState.Valid where
  traceId := by decide
  rawRef := by decide
  contentHash := sampleDigest.property
  contentType := by decide
  evidence := by decide
  progress := by decide

/-- A run up to its review, that is asked to go on while it waits, is answered and archived. -/
def reviewedRun : List WorkflowAction :=
  List.replicate 5 WorkflowAction.advance ++ [WorkflowAction.resume Adk.sampleDecision, .advance]

/-- The session after a node that was answered. -/
def after (session : AdkSession) (node : AdkNode) (result : NodeResult) : AdkSession :=
  session.append
    { invocationId := "e1", author := .node node, content := none
      route := node.route (InvoiceNodes.update session.state result)
      stateDelta := some (InvoiceNodes.update session.state result) }

/-- A node that completes for the first time is run, and leaves a valid state. -/
theorem runPending_after {session : AdkSession} (hvalid : session.state.Valid) {node : AdkNode}
    {input : Option ReviewDecision} (hpending : pending session = .node node input)
    {work : InvoiceNodeName} (hwork : node.work = some work) {result : NodeResult}
    (hanswer : sampleServices.answer .sample work session.state input = some result)
    (hnew : work ∉ session.state.completedNodes) :
    AdkWorkflow.runPending .sample sampleServices "e1" "call-1" session =
        some (after session node result) ∧
      (after session node result).state.Valid := by
  obtain ⟨hresult, hobjects, -⟩ := answer_node hanswer
  have hafter : (InvoiceNodes.update session.state result).Valid :=
    hvalid.update hobjects (by rwa [hresult])
  have hask : node ≠ .askReview := by
    rintro rfl
    cases hwork
  refine ⟨(AdkWorkflow.runPending_node hpending hask).trans
    (AdkWorkflow.runNode_eq hvalid hwork hanswer hafter), ?_⟩
  rwa [after, AdkSession.state_append, Option.getD_some]

/-- The invoice could not be read. -/
def escalated : NodeResult :=
  .extract (.obj [("status", .str "ESCALATED")]) none

/-- The session of a run whose invoice could not be read. -/
def escalatedSession : AdkSession :=
  after (after ⟨sampleState, []⟩ .ingest .ingest) .extract escalated

/-- That session, after its triage. -/
def triagedSession : AdkSession :=
  after escalatedSession .exceptionTriage
    (.exceptionTriage (.obj [("recommendation", .str "REVIEW")]))

/-- Then it asks for its review. -/
def askedSession : AdkSession :=
  triagedSession.append (askEvent "e1" "call-1")

/-- Then it is answered. -/
def answeredSession : AdkSession :=
  askedSession.append (answerEvent ("call-1", "e1") Adk.sampleDecision)

/-- Then the review is applied, and the run archived. -/
def reviewedSession : AdkSession :=
  after (after answeredSession .applyReview (.humanReview Adk.sampleDecision)) .archive .archive

/-- A step of the run, and the rest of its actions. -/
theorem run_advance {session session' : AdkSession} (actions : List WorkflowAction)
    (h : AdkWorkflow.runPending .sample sampleServices "e1" "call-1" session = some session') :
    (.advance :: actions).foldlM (AdkWorkflow.step .sample sampleServices "e1" "call-1") session =
      actions.foldlM (AdkWorkflow.step .sample sampleServices "e1" "call-1") session' := by
  rw [List.foldlM_cons, AdkWorkflow.step, h]
  rfl

/-- The reviewed run of the second build, action by action. -/
theorem run_reviewedRun :
    AdkWorkflow.run .sample sampleServices "e1" "call-1" sampleState reviewedRun =
      some reviewedSession := by
  obtain ⟨hingest, hvalid⟩ := @runPending_after ⟨sampleState, []⟩ sampleState_valid .ingest none
    rfl _ rfl .ingest rfl (by decide)
  obtain ⟨hextract, hvalid⟩ := @runPending_after _ hvalid .extract none rfl _ rfl escalated rfl
    (by decide)
  obtain ⟨htriage, hvalid⟩ := @runPending_after escalatedSession hvalid .exceptionTriage none rfl _
    rfl (.exceptionTriage (.obj [("recommendation", .str "REVIEW")])) rfl (by decide)
  -- The request and its answer leave the state as it is.
  have hask : AdkWorkflow.runPending .sample sampleServices "e1" "call-1" triagedSession =
      some askedSession := rfl
  have hwait : AdkWorkflow.runPending .sample sampleServices "e1" "call-1" askedSession =
      some askedSession := rfl
  have hwaiting : pending askedSession = .waiting := rfl
  obtain ⟨hreview, hvalid⟩ := @runPending_after answeredSession hvalid .applyReview
    (some Adk.sampleDecision) rfl _ rfl (.humanReview Adk.sampleDecision) rfl (by decide)
  obtain ⟨harchive, -⟩ := @runPending_after _ hvalid .archive none rfl _ rfl .archive rfl
    (by decide)
  have hresume : AdkWorkflow.step .sample sampleServices "e1" "call-1" askedSession
      (.resume Adk.sampleDecision) = some (after answeredSession .applyReview
        (.humanReview Adk.sampleDecision)) := by
    rw [AdkWorkflow.step, if_pos hwaiting]
    exact hreview
  rw [AdkWorkflow.run, reviewedRun]
  simp only [List.replicate, List.cons_append, List.nil_append]
  rw [run_advance _ hingest, run_advance _ hextract, ← escalatedSession, run_advance _ htriage,
    ← triagedSession, run_advance _ hask, run_advance _ hwait, List.foldlM_cons, hresume,
    Option.bind_eq_bind, Option.bind_some, run_advance _ harchive]
  rfl

end Workflows

/-- The theorem applies to a run that pauses, is approved and goes on to its end. -/
theorem workflows_agree_reviewedRun :
    (AdkWorkflow.run .sample Workflows.sampleServices "e1" "call-1" Workflows.sampleState
        Workflows.reviewedRun).map (fun session => session.state.completedNodes) =
      some [.ingest, .extract, .exceptionTriage, .humanReview, .archive] ∧
    ∃ g session, LangGraph.run .sample Workflows.sampleServices Workflows.sampleState
        Workflows.reviewedRun = some g ∧
      AdkWorkflow.run .sample Workflows.sampleServices "e1" "call-1" Workflows.sampleState
        Workflows.reviewedRun = some session ∧
      g.position = AdkWorkflow.position session ∧
      InvoiceGraphState.validate .sample g.channels = some session.state ∧
      g.states .sample = (AdkWorkflow.states session).map (fun v => (v.1, some v.2)) := by
  obtain ⟨g, session, hg, ha, hposition, hstate, hstates, -⟩ := workflows_agree .sample
    Workflows.sampleServices "e1" "call-1" Workflows.sampleState_valid rfl Workflows.reviewedRun
  exact ⟨by rw [Workflows.run_reviewedRun]; rfl, g, session, hg, ha, hposition, hstate, hstates⟩

namespace Workflows

/-- A state in which `ExceptionTriage` has completed already. -/
def staleState : InvoiceGraphState :=
  { sampleState with completedNodes := [.exceptionTriage] }

/-- That state is valid, too. -/
theorem staleState_valid : staleState.Valid :=
  { sampleState_valid with progress := by decide }

/-- The session where `ExceptionTriage` is next. -/
def staleSession : AdkSession :=
  after (after ⟨staleState, []⟩ .ingest .ingest) .extract escalated

/-- `Ingest` and `Extract` have not completed before. -/
theorem stale_valid : (InvoiceNodes.update staleState .ingest).Valid ∧
    (InvoiceNodes.update (InvoiceNodes.update staleState .ingest) escalated).Valid := by
  have hingest := @InvoiceGraphState.Valid.update staleState staleState_valid .ingest (by decide)
    (by decide)
  exact ⟨hingest, @InvoiceGraphState.Valid.update _ hingest escalated (by decide) (by decide)⟩

/-- ADK runs two nodes, and the third one fails, as it completes twice. -/
theorem run_stale :
    AdkWorkflow.run .sample sampleServices "e1" "call-1" staleState [.advance] =
        some (after ⟨staleState, []⟩ .ingest .ingest) ∧
      AdkWorkflow.run .sample sampleServices "e1" "call-1" staleState
        [.advance, .advance, .advance] = none := by
  obtain ⟨hingest, hvalid⟩ := @runPending_after ⟨staleState, []⟩ staleState_valid .ingest none
    rfl _ rfl .ingest rfl (by decide)
  obtain ⟨hextract, hvalid⟩ := @runPending_after _ hvalid .extract none rfl _ rfl escalated rfl
    (by decide)
  have htriage : AdkWorkflow.runPending .sample sampleServices "e1" "call-1" staleSession = none :=
    (@AdkWorkflow.runPending_node .sample sampleServices "e1" "call-1" staleSession
      .exceptionTriage none rfl (by decide)).trans
        (AdkWorkflow.runNode_eq_none hvalid rfl rfl (by decide) fun h =>
          absurd h.progress (by decide))
  constructor
  · rw [AdkWorkflow.run, run_advance _ hingest]
    rfl
  · rw [AdkWorkflow.run, run_advance _ hingest, run_advance _ hextract, ← staleSession,
      List.foldlM_cons, AdkWorkflow.step, htriage]
    rfl

/-- LangGraph runs the third node as well, whose edge does not read the state. -/
theorem langGraph_stale : (LangGraph.run .sample sampleServices staleState
    [.advance, .advance, .advance]).isSome :=
  @LangGraph.run_to_triage .sample sampleServices staleState staleState_valid .ingest escalated
    (.exceptionTriage (.obj [("recommendation", .str "REVIEW")])) rfl stale_valid.1 rfl
    stale_valid.2 rfl rfl rfl

end Workflows

/-- From such a state the nodes begin no path, and the builds part : ADK checks the state of a node
at once, LangGraph at the next one. -/
theorem stale_progress :
    Workflows.staleState.Valid ∧
      (AdkWorkflow.run .sample Workflows.sampleServices "e1" "call-1" Workflows.staleState
        [.advance]).map (fun session => session.state.completedNodes) =
          some [.exceptionTriage, .ingest] ∧
      (∀ path ∈ workflowPaths, ¬[.exceptionTriage, .ingest] <+: path) ∧
      (AdkWorkflow.run .sample Workflows.sampleServices "e1" "call-1" Workflows.staleState
        [.advance, .advance, .advance]).isNone ∧
      (LangGraph.run .sample Workflows.sampleServices Workflows.staleState
        [.advance, .advance, .advance]).isSome := by
  obtain ⟨hone, hthree⟩ := Workflows.run_stale
  refine ⟨Workflows.staleState_valid, ?_, by decide, ?_, Workflows.langGraph_stale⟩
  · rw [hone]
    rfl
  · rw [hthree]
    rfl

end InvoiceOps
