import V91Core.Effect.Eval
import V91Core.Effect.Mealy
import V91Core.Guardrail.Core

namespace V91Core.Guardrail

open V91Core.Python V91Core.Effect

-- `F` is the type of the callables that the host registers.
structure ToolSpec (F : Type) where
  function : F
  readOnly : PyData
  networkAccess : PyData
  destructive : PyData

abbrev AuditEntry := List (PyStr × Json)

structure ToolResult (V : Type) where
  status : PyStr
  result : Option V
  audit : AuditEntry

structure GuardedToolRunner (F : Type) where
  tools : PyStr → Option (ToolSpec F)
  auditLog : List AuditEntry

def GuardedToolRunner.init {F : Type} (tools : PyStr → Option (ToolSpec F)) : GuardedToolRunner F := ⟨tools, []⟩

-- `spec.function(*args, **kwargs)`.
structure Invocation (F A : Type) where
  function : F
  arguments : A

section Run

-- `typeName` is `type(exc).__name__`.
variable {F A V E : Type} (tables : CharTables) (typeName : E → PyStr)

def isText : PyData → Bool
  | .str _ => true
  | _ => false

def base (toolName : PyStr) (proposal : PyData) : AuditEntry :=
  [(py "tool_name", .str toolName), (py "proposal_checked", .bool (isText proposal))]

def blocked (toolName : PyStr) (proposal : PyData) (status reason : String) : ToolResult V :=
  ⟨py status, none, base toolName proposal ++ [(py "decision", .str (py "BLOCK")), (py "reason", .str (py reason)),
    (py "execution_attempted", .bool false)]⟩

def blockedByPolicy (toolName : PyStr) (proposal : PyData) (decision : Decision) : ToolResult V :=
  ⟨py "BLOCK_POLICY", none, base toolName proposal ++ [(py "decision", .str (py "BLOCK")),
    (py "policy_status", .str decision.status.name), (py "reason_codes", .arr (decision.reasons.map .str)),
    (py "topic_flags", .arr (decision.topicFlags.map .str)), (py "evidence_state", .str decision.evidenceState),
    (py "execution_attempted", .bool false)]⟩

def toolError (toolName : PyStr) (proposal : PyData) (decision : Decision) (exc : E) : ToolResult V :=
  ⟨py "TOOL_ERROR", none, base toolName proposal ++ [(py "decision", .str (py "ALLOW_LOCAL_READ_ONLY_TOOL")),
    (py "policy_status", .str decision.status.name), (py "execution_attempted", .bool true),
    (py "result_state", .str (py "ERROR")), (py "error_type", .str (typeName exc))]⟩

def executed (toolName : PyStr) (proposal : PyData) (decision : Decision) (value : V) : ToolResult V :=
  ⟨py "EXECUTED_LOCAL_READ_ONLY", some value, base toolName proposal ++
    [(py "decision", .str (py "ALLOW_LOCAL_READ_ONLY_TOOL")), (py "policy_status", .str decision.status.name),
    (py "execution_attempted", .bool true), (py "result_state", .str (py "RETURNED")),
    (py "evidence_state", .str decision.evidenceState)]⟩

def ToolSpec.isUnsafe (spec : ToolSpec F) : Bool :=
  !spec.readOnly.truthy || spec.networkAccess.truthy || spec.destructive.truthy

def execute (spec : ToolSpec F) (toolName : PyStr) (proposal : PyData) (arguments : A) (decision : Decision) :
    Prog (Invocation F A) (fun _ => V) E (ToolResult V) := do
  let outcome ← (Prog.perform ⟨spec.function, arguments⟩).attempt
  match outcome with
  | .error exc => return toolError typeName toolName proposal decision exc
  | .ok value => return executed toolName proposal decision value

-- What `run` passes to `_record`.
def answer (tools : PyStr → Option (ToolSpec F)) (toolName : PyStr) (proposal : PyData) (arguments : A) :
    Prog (Invocation F A) (fun _ => V) E (ToolResult V) :=
  match tools toolName with
  | none => return blocked toolName proposal "BLOCK_UNKNOWN_TOOL" "TOOL_NOT_ALLOWLISTED"
  | some spec =>
      if spec.isUnsafe then return blocked toolName proposal "BLOCK_UNSAFE_TOOL_SPEC" "TOOL_NOT_LOCAL_READ_ONLY"
      else
        let decision := evaluate tables proposal .default
        if decision.status ≠ .allowLocalReview then return blockedByPolicy toolName proposal decision
        else execute typeName spec toolName proposal arguments decision

def GuardedToolRunner.record (runner : GuardedToolRunner F) (result : ToolResult V) : GuardedToolRunner F :=
  { runner with auditLog := runner.auditLog ++ [result.audit] }

def GuardedToolRunner.run (runner : GuardedToolRunner F) (toolName : PyStr) (proposal : PyData) (arguments : A) :
    Prog (Invocation F A) (fun _ => V) E (ToolResult V × GuardedToolRunner F) := do
  let result ← answer tables typeName runner.tools toolName proposal arguments
  return (result, runner.record result)

end Run

section Served

-- One call of `run`. `tool` is what the registered functions do during the call.
structure Request (F A V E : Type) where
  toolName : PyStr
  proposal : PyData
  arguments : A
  tool : Invocation F A → Except E V

variable {F A V E : Type} (tables : CharTables) (typeName : E → PyStr) (tools : PyStr → Option (ToolSpec F))

-- The request names this tool, and both the tool and the proposal are allowed.
structure Allows (r : Request F A V E) (spec : ToolSpec F) : Prop where
  registered : tools r.toolName = some spec
  readOnly : spec.readOnly.truthy = true
  isLocal : spec.networkAccess.truthy = false
  harmless : spec.destructive.truthy = false
  policy : (evaluate tables r.proposal .default).status = .allowLocalReview

-- What the gateway invoked and what it wrote to the audit log for a request.
structure Served (r : Request F A V E) (invoked : List (Invocation F A)) (entry : AuditEntry) : Prop where
  named : Json.lookup (py "tool_name") entry = some (.str r.toolName)
  once : ∀ spec, Allows tables tools r spec → invoked = [⟨spec.function, r.arguments⟩]
  never : (∀ spec, ¬ Allows tables tools r spec) → invoked = []
  attempted : ∃ attempted, Json.lookup (py "execution_attempted") entry = some (.bool attempted) ∧
    (attempted = true ↔ ∃ spec, Allows tables tools r spec)

theorem isUnsafe_eq_false (spec : ToolSpec F) :
    spec.isUnsafe = false ↔
      spec.readOnly.truthy = true ∧ spec.networkAccess.truthy = false ∧ spec.destructive.truthy = false := by
  simp [ToolSpec.isUnsafe, and_assoc]

theorem answer_cases (r : Request F A V E) :
    (∃ result : ToolResult V, answer tables typeName tools r.toolName r.proposal r.arguments =
        (pure result : Prog (Invocation F A) (fun _ => V) E (ToolResult V)) ∧
      (∀ spec, ¬ Allows tables tools r spec) ∧
      Json.lookup (py "tool_name") result.audit = some (.str r.toolName) ∧
      Json.lookup (py "execution_attempted") result.audit = some (.bool false)) ∨
    ∃ spec, Allows tables tools r spec ∧
      answer tables typeName tools r.toolName r.proposal r.arguments =
        execute (V := V) typeName spec r.toolName r.proposal r.arguments (evaluate tables r.proposal .default) := by
  rw [answer]
  cases htool : tools r.toolName with
  | none =>
      refine .inl ⟨_, rfl, fun spec hspec => ?_, rfl, rfl⟩
      have hregistered := hspec.registered
      rw [htool] at hregistered
      cases hregistered
  | some spec =>
      have hsame : ∀ spec', Allows tables tools r spec' → spec' = spec := fun spec' hspec =>
        Option.some.inj (hspec.registered.symm.trans htool)
      dsimp only
      cases hharm : spec.isUnsafe with
      | true =>
          refine .inl ⟨_, rfl, fun spec' hspec => ?_, rfl, rfl⟩
          obtain rfl := hsame spec' hspec
          have hsafe := (isUnsafe_eq_false spec').mpr ⟨hspec.readOnly, hspec.isLocal, hspec.harmless⟩
          rw [hharm] at hsafe
          cases hsafe
      | false =>
          obtain ⟨hread, hlocal, hharmless⟩ := (isUnsafe_eq_false spec).mp hharm
          rw [if_neg Bool.false_ne_true]
          by_cases hpolicy : (evaluate tables r.proposal .default).status = .allowLocalReview
          · rw [if_neg (not_not.mpr hpolicy)]
            exact .inr ⟨spec, ⟨htool, hread, hlocal, hharmless, hpolicy⟩, rfl⟩
          · rw [if_pos hpolicy]
            exact .inl ⟨_, rfl, fun spec' hspec => hpolicy hspec.policy, rfl, rfl⟩

-- The tool is invoked once, and both of its outcomes are recorded.
theorem execute_spec (spec : ToolSpec F) (toolName : PyStr) (proposal : PyData) (arguments : A) (decision : Decision)
    (tool : Invocation F A → Except E V) :
    (execute typeName spec toolName proposal arguments decision).calls tool = [⟨spec.function, arguments⟩] ∧
      ∃ result : ToolResult V,
        (execute typeName spec toolName proposal arguments decision).result tool = .ok result ∧
        Json.lookup (py "tool_name") result.audit = some (.str toolName) ∧
        Json.lookup (py "execution_attempted") result.audit = some (.bool true) := by
  have hattempt : (Prog.perform ⟨spec.function, arguments⟩ : Prog (Invocation F A) (fun _ => V) E V).attempt.result
      tool = .ok (tool ⟨spec.function, arguments⟩) := by
    rw [Prog.result_attempt, Prog.result_perform]
  rw [execute, Prog.result_bind, Prog.calls_bind_ok tool _ _ _ hattempt, hattempt, ok_bind, Prog.calls_attempt,
    Prog.calls_perform]
  cases tool ⟨spec.function, arguments⟩ with
  | error exc => exact ⟨rfl, _, rfl, rfl, rfl⟩
  | ok value => exact ⟨rfl, _, rfl, rfl, rfl⟩

theorem answer_served (r : Request F A V E) :
    ∃ result : ToolResult V,
      (answer tables typeName tools r.toolName r.proposal r.arguments).result r.tool = .ok result ∧
      Served tables tools r ((answer (V := V) tables typeName tools r.toolName r.proposal r.arguments).calls r.tool)
        result.audit := by
  rcases answer_cases tables typeName tools r with ⟨result, hanswer, hnone, hname, hattempted⟩ | ⟨spec, hspec, hanswer⟩
  · rw [hanswer]
    refine ⟨result, rfl, hname, fun spec hspec => absurd hspec (hnone spec), fun _ => rfl, false, hattempted, ?_⟩
    exact iff_of_false Bool.false_ne_true (not_exists.mpr hnone)
  · obtain ⟨hcalls, result, hresult, hname, hattempted⟩ :=
      execute_spec typeName spec r.toolName r.proposal r.arguments (evaluate tables r.proposal .default) r.tool
    rw [hanswer, hresult, hcalls]
    refine ⟨result, rfl, hname, fun spec' hspec' => ?_, fun hnone => absurd hspec (hnone spec), true, hattempted, ?_⟩
    · rw [Option.some.inj (hspec'.registered.symm.trans hspec.registered)]
    · exact iff_of_true rfl ⟨spec, hspec⟩

end Served

section Gateway

variable {F A V E : Type} (tables : CharTables) (typeName : E → PyStr)

-- The runner as a machine: a request yields how `run` ends and what it invokes.
def gateway (tools : PyStr → Option (ToolSpec F)) :
    Mealy (GuardedToolRunner F) (Request F A V E) (Except E (ToolResult V) × List (Invocation F A)) where
  init := .init tools
  step runner r :=
    match (runner.run tables typeName r.toolName r.proposal r.arguments).result r.tool with
    | .ok (_, runner) => runner
    | .error _ => runner
  output runner r :=
    let called := runner.run tables typeName r.toolName r.proposal r.arguments
    ((called.result r.tool).map Prod.fst, called.calls r.tool)

theorem gateway_step (tools : PyStr → Option (ToolSpec F)) (runner : GuardedToolRunner F) (r : Request F A V E) :
    ∃ (result : ToolResult V) (invoked : List (Invocation F A)),
      (gateway tables typeName tools).output runner r = (.ok result, invoked) ∧
      (gateway tables typeName tools).step runner r = runner.record result ∧
      Served tables runner.tools r invoked result.audit := by
  obtain ⟨result, hresult, hserved⟩ := answer_served tables typeName runner.tools r
  have hrun : (runner.run tables typeName r.toolName r.proposal r.arguments).result r.tool =
      .ok (result, runner.record result) := by
    rw [GuardedToolRunner.run, Prog.result_bind, hresult]
    rfl
  have hcalls : (runner.run (V := V) tables typeName r.toolName r.proposal r.arguments).calls r.tool =
      (answer (V := V) tables typeName runner.tools r.toolName r.proposal r.arguments).calls r.tool := by
    rw [GuardedToolRunner.run, Prog.calls_bind_ok _ _ _ _ hresult]
    exact List.append_nil _
  refine ⟨result, _, ?_, ?_, hserved⟩
  · simp only [gateway, hrun, hcalls]
    rfl
  · simp only [gateway, hrun]

theorem gateway_run (tools : PyStr → Option (ToolSpec F)) (runner : GuardedToolRunner F)
    (requests : List (Request F A V E)) :
    ∃ served : List (ToolResult V × List (Invocation F A)),
      (gateway tables typeName tools).outputs runner requests = served.map (fun s => (.ok s.1, s.2)) ∧
      ((gateway tables typeName tools).after runner requests).auditLog =
        runner.auditLog ++ served.map (·.1.audit) ∧
      List.Forall₂ (fun r s => Served tables runner.tools r s.2 s.1.audit) requests served := by
  induction requests generalizing runner with
  | nil => exact ⟨[], rfl, (List.append_nil _).symm, .nil⟩
  | cons r requests ih =>
      obtain ⟨result, invoked, houtput, hstep, hfirst⟩ := gateway_step tables typeName tools runner r
      obtain ⟨served, houtputs, hlog, hrest⟩ := ih (runner.record result)
      refine ⟨(result, invoked) :: served, ?_, ?_, .cons hfirst hrest⟩
      · rw [Mealy.outputs, houtput, hstep, houtputs, List.map_cons]
      · rw [Mealy.after, List.foldl_cons, hstep]
        rw [Mealy.after] at hlog
        rw [hlog, GuardedToolRunner.record, List.map_cons, List.append_assoc]
        rfl

-- Every request gets one entry in the audit log, in order, and the tool is invoked
-- exactly when the request is allowed, which is what the entry says.
theorem gateway_audits_every_request (tools : PyStr → Option (ToolSpec F)) (requests : List (Request F A V E)) :
    ∃ served : List (ToolResult V × List (Invocation F A)),
      (gateway tables typeName tools).outputs (.init tools) requests = served.map (fun s => (.ok s.1, s.2)) ∧
      ((gateway tables typeName tools).after (.init tools) requests).auditLog = served.map (·.1.audit) ∧
      List.Forall₂ (fun r s => Served tables tools r s.2 s.1.audit) requests served :=
  gateway_run tables typeName tools (.init tools) requests

end Gateway

end V91Core.Guardrail
