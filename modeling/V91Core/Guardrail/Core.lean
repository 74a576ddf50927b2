import V91Core.Python.Data
import V91Core.Python.Pattern

namespace V91Core.Guardrail

open V91Core.Python

structure PolicyContext where
  sourceIsAuthorized : Bool
  humanApproved : Bool
  allowReadOnlyAnalysis : Bool
  networkRequested : Bool
  destructiveActionRequested : Bool
  privilegeChangeRequested : Bool
  executeCodeRequested : Bool
  privateDataRequested : Bool

def PolicyContext.default : PolicyContext where
  sourceIsAuthorized := false
  humanApproved := false
  allowReadOnlyAnalysis := true
  networkRequested := false
  destructiveActionRequested := false
  privilegeChangeRequested := false
  executeCodeRequested := false
  privateDataRequested := false

inductive Status where
  | block
  | reviewRequired
  | allowLocalReview
deriving DecidableEq

def Status.name : Status → PyStr
  | .block => py "BLOCK"
  | .reviewRequired => py "REVIEW_REQUIRED"
  | .allowLocalReview => py "ALLOW_LOCAL_REVIEW"

structure Decision where
  status : Status
  reasons : List PyStr
  topicFlags : List PyStr
  evidenceState : PyStr
deriving DecidableEq

section Patterns

open Pattern

def literals (first : String) (others : List String) : Pattern :=
  oneOf (literal (py first)) (others.map fun text => literal (py text))

-- `\b(...)\b`.
def wholeWords (p : Pattern) : Pattern := seq boundary (seq p boundary)

def conflictOrWar : Pattern :=
  wholeWords (oneOf (literal (py "krieg"))
    [seq (literal (py "bewaffnet")) (seq (optional (literals "e" ["er", "en"])) (literal (py " konflikt"))),
      literals "waffenhandel" ["militärangriff", "munitionsproduktion", "rüstungsindustrie", "frontverlauf"]])

def resourceOrEnvironment : Pattern :=
  wholeWords (literals "entropie" ["energieverbrauch", "co2", "emissionen", "ressourcenverbrauch", "abfall",
    "verschwendung", "überproduktion", "reparatur", "recycling", "lebenszyklus", "wasserverbrauch"])

def luxuryOrNonessentialProduction : Pattern :=
  wholeWords (literals "luxusüberproduktion" ["luxusgüter", "nicht notwendige überproduktion",
    "geplante obsoleszenz", "wegwerfprodukt", "überflüssige produktion"])

def cyberOrSystemAction : Pattern :=
  wholeWords (literals "exploit" ["schwachstelle ausnutzen", "passwort stehlen", "zugangsdaten abgreifen", "malware",
    "ransomware", "fernsteuerung"])

def topicPatterns : List (PyStr × Pattern) :=
  [(py "CONFLICT_OR_WAR", conflictOrWar), (py "RESOURCE_OR_ENVIRONMENT", resourceOrEnvironment),
    (py "LUXURY_OR_NONESSENTIAL_PRODUCTION", luxuryOrNonessentialProduction),
    (py "CYBER_OR_SYSTEM_ACTION", cyberOrSystemAction)]

def destructiveActionCue : Pattern :=
  wholeWords (oneOf (literals "lösche" ["löschen", "vernichte", "wipe", "purge"])
    [seq (literal (py "formatier")) (literals "e" ["en"])])

def executionCue : Pattern :=
  wholeWords (literals "führe aus" ["execute", "shell-befehl", "powershell", "cmd.exe"])

def privilegeEscalationCue : Pattern :=
  wholeWords (literals "adminrechte" ["rechteausweitung", "privilegien erhöhen", "root-zugriff"])

def unauthorizedAccessCue : Pattern :=
  wholeWords (literals "hacke" ["unbefugter zugriff", "umgehe die anmeldung", "zugriff umgehen"])

def highRiskPatterns : List (PyStr × Pattern) :=
  [(py "DESTRUCTIVE_ACTION_CUE", destructiveActionCue), (py "EXECUTION_CUE", executionCue),
    (py "PRIVILEGE_ESCALATION_CUE", privilegeEscalationCue), (py "UNAUTHORIZED_ACCESS_CUE", unauthorizedAccessCue)]

end Patterns

variable (tables : CharTables)

-- `sorted(name for name, pattern in patterns.items() if pattern.search(text))`.
def found (patterns : List (PyStr × Pattern)) (text : PyStr) : List PyStr :=
  ((patterns.filter fun p => p.2.search tables text).map Prod.fst).insertionSort fun a b => strLe a b = true

def contextReasons (context : PolicyContext) : List PyStr :=
  (if context.privateDataRequested then [py "PRIVATE_DATA_REQUEST_BLOCKED"] else []) ++
  (if context.networkRequested && !context.sourceIsAuthorized then [py "NETWORK_ACCESS_NOT_AUTHORIZED"] else []) ++
  (if context.destructiveActionRequested && !context.humanApproved then
    [py "DESTRUCTIVE_ACTION_REQUIRES_SEPARATE_APPROVAL"] else []) ++
  (if context.privilegeChangeRequested then [py "PRIVILEGE_CHANGE_NOT_ALLOWED_BY_DEFAULT"] else []) ++
  (if context.executeCodeRequested && !context.humanApproved then
    [py "CODE_EXECUTION_REQUIRES_SEPARATE_APPROVAL"] else [])

def evaluateText (text : PyStr) (context : PolicyContext) : Decision :=
  let topicFlags := found tables topicPatterns text
  let riskCues := found tables highRiskPatterns text
  let reasons := contextReasons context ++ riskCues.map (py "HIGH_RISK_CUE:" ++ ·)
  if reasons ≠ [] then ⟨.block, reasons, topicFlags, py "DOCUMENTED_INPUT_ONLY"⟩
  else if topicFlags ≠ [] then
    ⟨.reviewRequired, [py "TOPIC_FLAG_IS_NOT_A_FACT_FINDING", py "NO_EXTERNAL_EVIDENCE_FETCHED"], topicFlags,
      py "PENDING_WITNESS"⟩
  else if !context.allowReadOnlyAnalysis then
    ⟨.block, [py "READ_ONLY_ANALYSIS_NOT_ALLOWED"], [], py "DOCUMENTED_INPUT_ONLY"⟩
  else
    ⟨.allowLocalReview, [py "NO_LOCAL_POLICY_BLOCK_FOUND", py "ALLOW_IS_NOT_A_SECURITY_GUARANTEE"], [],
      py "DOCUMENTED_INPUT_ONLY"⟩

def evaluate (text : PyData) (context : PolicyContext) : Decision :=
  match text.nonBlank? with
  | none => ⟨.block, [py "EMPTY_OR_INVALID_REQUEST"], [], py "NO_DATA_AVAILABLE"⟩
  | some text => evaluateText tables text context

-- The tables on ASCII alone.
def asciiTables : CharTables where
  lower c := if 0x41 ≤ c.val && c.val ≤ 0x5A then chr (c.val + 32) else c
  isAlnum c := c.isDigit || (0x41 ≤ c.val && c.val ≤ 0x5A) || (0x61 ≤ c.val && c.val ≤ 0x7A)
  extraCases _ := []

example : (evaluate asciiTables (.str (py "Berechne zwei Zahlen lokal.")) .default).status = .allowLocalReview ∧
    (evaluate asciiTables (.str (py "Analysiere Berichte zum Krieg.")) .default).topicFlags = [py "CONFLICT_OR_WAR"] ∧
    (evaluate asciiTables (.str (py "bewaffneter Konflikt, CMD.exe")) .default).reasons =
      [py "HIGH_RISK_CUE:EXECUTION_CUE"] := by
  decide +kernel

end V91Core.Guardrail
