import ArrowheadCore.Lib.Resumption
import ArrowheadCore.Orchestrator.Orchestration

/-!
# Contacts

`dynamicOrchestration` as a program whose commands are the requests to the other systems, so that it can be said which of
them are sent. With the answers of a `World` it gives what `dynamicOrchestration` gives.
-/

namespace ArrowheadCore.Orchestrator
open Lib Json ServiceRegistry

/-- A request to another system: its number, its URL and its body. -/
structure Contact where
  number : Nat
  url : List UInt8
  body : List UInt8

/-- Programs that contact other systems; the answer is the body, or `none` when its status is not OK. They throw where the
    process ends. -/
abbrev Exchange := Prog Contact (fun _ => Option (List UInt8)) Unit

namespace Exchange
variable {α : Type}

def send (number : Nat) (url body : List UInt8) : Exchange (Option (List UInt8)) := .step ⟨number, url, body⟩ .done

/-- What the endpoint finds out by itself. -/
def own : Option α → Exchange α
  | some a => .done a
  | none => .raise ()

/-! ## The parts that send requests -/

def queryServiceRegistry (w : World) (form : ServiceRequestForm) : Exchange (Option JsonValue) := do
  let payload ← own (convertText form.jRequestedService)
  let answer ← send 0 (bytes "https://127.0.0.1/query") payload
  return answer >>= w.jsonParse

def queryAuthorization (w : World) (form : ServiceRequestForm) (queryData : List JsonValue) :
    Exchange (Option JsonValue) := do
  let sIntraCloudRule ← own (createIntraCloudRule form.jRequesterSystem queryData)
  let answer ← send 1 (bytes "https://127.0.0.1/intracloud/check") sIntraCloudRule
  return answer >>= w.jsonParse

/-- What `queryTokens` makes of the answer. -/
def readTokens (jAuthTokens : JsonValue) : Option (Option (List UInt8)) := do
  let tokenData := (← get jAuthTokens "tokenData").itemAt 0
  if !tokenData.isSet then some none
  else
    let tokens ← get tokenData "tokens"
    if !tokens.isSet then some none else some (some (← convertText tokens))

def queryTokens (w : World) (n : Nat) (sConsumer : List UInt8) (entry : JsonValue) (intfs : List JsonValue) :
    Exchange (Option (List UInt8)) := do
  let sTokenRule ← own (createTokenRule sConsumer entry intfs)
  let answer ← send n (bytes "https://127.0.0.1/token") sTokenRule
  match answer >>= w.jsonParse with
  | none => return none
  | some jAuthTokens => own (readTokens jAuthTokens)

def addTokens (w : World) (n : Nat) (sConsumer : List UInt8) (entry : JsonValue) (intfs : List JsonValue) (o : Out) :
    Exchange (Option Out) := do
  let secure ← own (getString entry "secure")
  if toLowerAndTrim secure = bytes "token" then
    let tokens ← queryTokens w n sConsumer entry intfs
    return tokens.map fun sTokens => addObj (bytes "authorizationTokens") (cStr sTokens) o
  else return some o

def finishElement (w : World) (sConsumer : List UInt8) (n : Nat) (entry : JsonValue) (intfs : List JsonValue)
    (o : Out) : Exchange (Option OrchElement) := do
  let texts ← own (intfs.mapM convertText)
  match ← addTokens w n sConsumer entry intfs (to_arrayObj (bytes "interfaces") texts o) with
  | none => return none
  | some o =>
    let sWarning ← own (calculateOrchestratorWarnings w entry)
    return some ⟨entry, intfs, str (to_arrayObj (bytes "warnings") (if sWarning = [] then [] else [sWarning]) o)⟩

def createElement (w : World) (m : ProvIntfs) (sConsumer : List UInt8) (n : Nat) (entry : JsonValue) :
    Exchange (Option OrchElement) := do
  let o ← own (elementHead entry)
  let provId ← own (providerId entry)
  match m.lookup provId with
  | none => return none
  | some intfs => finishElement w sConsumer n entry intfs o

def createElements (w : World) (m : ProvIntfs) (sConsumer : List UInt8) (n : Nat) :
    List JsonValue → Exchange (List OrchElement)
  | [] => return []
  | entry :: entries => do
    let element ← createElement w m sConsumer n entry
    let elements ← createElements w m sConsumer (n + 1) entries
    return element.toList ++ elements

def createOrchestrationResponse (w : World) (vProviders : List JsonValue) (m : ProvIntfs) (sConsumer : List UInt8) :
    Exchange Answer := do
  let elements ← createElements w m sConsumer 2 vProviders
  return .response elements (str (to_arrayObj (bytes "response") (elements.map OrchElement.text) newBuilder))

def answerAuthorized (w : World) (form : ServiceRequestForm) (queryData : List JsonValue) (m : ProvIntfs) :
    Exchange Answer := do
  let preferredQueryData ← own (preferredEntries form queryData)
  if form.getFlagValue "onlyPreferred" && preferredQueryData.isEmpty then return .empty
  else
    let sRequester ← own (convertText form.jRequesterSystem)
    let vProviders ← own (chooseEntries w form queryData preferredQueryData m)
    createOrchestrationResponse w vProviders m sRequester

def answerEntries (w : World) (form : ServiceRequestForm) (queryData : List JsonValue) : Exchange Answer := do
  match ← queryAuthorization w form queryData with
  | none => return .empty
  | some auth =>
    let m ← own (filterProviderListUsingAuthorizationResult queryData auth)
    if m.entries = [] then return .empty else answerAuthorized w form queryData m

def dynamicOrchestration (w : World) (form : ServiceRequestForm) (errURL : List UInt8) : Exchange Answer := do
  let status ← own (checkServiceRequestForm form)
  match formError errURL status with
  | some e => return e
  | none =>
    match ← queryServiceRegistry w form with
    | none => return .empty
    | some root =>
      let data ← own (get root "serviceQueryData")
      if values data = [] then return .empty else answerEntries w form (values data)

/-! ## The same answers -/

def answersOf (w : World) (c : Contact) : Option (List UInt8) := w.send c.number c.url c.body

section
variable (w : World) (form : ServiceRequestForm)

@[simp] lemma eval_own (x : Option α) : (own x).eval (answersOf w) = x := by
  cases x with
  | none => rfl
  | some a => rfl

@[simp] lemma eval_send (n : Nat) (url body : List UInt8) : (send n url body).eval (answersOf w) = some (w.send n url body) := rfl

lemma eval_queryServiceRegistry :
    (queryServiceRegistry w form).eval (answersOf w) = Orchestrator.queryServiceRegistry w form := by
  simp [queryServiceRegistry, Orchestrator.queryServiceRegistry]

lemma eval_queryAuthorization (queryData : List JsonValue) :
    (queryAuthorization w form queryData).eval (answersOf w) = Orchestrator.queryAuthorization w form queryData := by
  simp [queryAuthorization, Orchestrator.queryAuthorization]

lemma eval_queryTokens (n : Nat) (sConsumer : List UInt8) (entry : JsonValue) (intfs : List JsonValue) :
    (queryTokens w n sConsumer entry intfs).eval (answersOf w) = Orchestrator.queryTokens w n sConsumer entry intfs := by
  simp only [queryTokens, Orchestrator.queryTokens, Prog.eval_bind, eval_own, eval_send, Option.bind_eq_bind, Option.bind_some]
  congr 1
  funext rule
  cases (w.send n (bytes "https://127.0.0.1/token") rule).bind w.jsonParse with
  | none => rfl
  | some answer => exact eval_own w _

lemma eval_addTokens (n : Nat) (sConsumer : List UInt8) (entry : JsonValue) (intfs : List JsonValue) (o : Out) :
    (addTokens w n sConsumer entry intfs o).eval (answersOf w) = Orchestrator.addTokens w n sConsumer entry intfs o := by
  simp only [addTokens, Orchestrator.addTokens, Prog.eval_bind, eval_own, Option.bind_eq_bind]
  congr 1
  funext secure
  split_ifs
  · rw [Prog.eval_bind, eval_queryTokens]
    rfl
  · rfl

lemma eval_finishElement (sConsumer : List UInt8) (n : Nat) (entry : JsonValue) (intfs : List JsonValue) (o : Out) :
    (finishElement w sConsumer n entry intfs o).eval (answersOf w) = Orchestrator.finishElement w sConsumer n entry intfs o := by
  simp only [finishElement, Orchestrator.finishElement, Prog.eval_bind, eval_own, eval_addTokens, Option.bind_eq_bind]
  congr 1
  funext texts
  congr 1
  funext tokens
  cases tokens with
  | none => rfl
  | some o => simp

lemma eval_createElement (m : ProvIntfs) (sConsumer : List UInt8) (n : Nat) (entry : JsonValue) :
    (createElement w m sConsumer n entry).eval (answersOf w) = Orchestrator.createElement w m sConsumer n entry := by
  simp only [createElement, Orchestrator.createElement, Prog.eval_bind, eval_own, Option.bind_eq_bind]
  congr 1
  funext o
  congr 1
  funext provId
  cases m.lookup provId with
  | none => rfl
  | some intfs => exact eval_finishElement w sConsumer n entry intfs o

lemma eval_createElements (m : ProvIntfs) (sConsumer : List UInt8) (n : Nat) (entries : List JsonValue) :
    (createElements w m sConsumer n entries).eval (answersOf w) = Orchestrator.createElements w m sConsumer n entries := by
  induction entries generalizing n with
  | nil => rfl
  | cons entry entries ih =>
    simp [createElements, Orchestrator.createElements, eval_createElement, ih]

lemma eval_answerAuthorized (queryData : List JsonValue) (m : ProvIntfs) :
    (answerAuthorized w form queryData m).eval (answersOf w) = Orchestrator.answerAuthorized w form queryData m := by
  simp only [answerAuthorized, Orchestrator.answerAuthorized, Prog.eval_bind, eval_own, Option.bind_eq_bind]
  congr 1
  funext preferred
  split_ifs
  · rfl
  · simp [createOrchestrationResponse, Orchestrator.createOrchestrationResponse, eval_createElements]

lemma eval_answerEntries (queryData : List JsonValue) :
    (answerEntries w form queryData).eval (answersOf w) = Orchestrator.answerEntries w form queryData := by
  simp only [answerEntries, Orchestrator.answerEntries, Prog.eval_bind, eval_queryAuthorization, Option.bind_eq_bind]
  congr 1
  funext auth
  cases auth with
  | none => rfl
  | some auth =>
    simp only [Prog.eval_bind, eval_own]
    congr 1
    funext m
    split_ifs
    · rfl
    · exact eval_answerAuthorized w form queryData m

/-- With the answers of the world, the program answers as `dynamicOrchestration` does. -/
lemma eval_dynamicOrchestration (errURL : List UInt8) :
    (dynamicOrchestration w form errURL).eval (answersOf w) = Orchestrator.dynamicOrchestration w form errURL := by
  simp only [dynamicOrchestration, Orchestrator.dynamicOrchestration, Prog.eval_bind, eval_own, Option.bind_eq_bind]
  congr 1
  funext status
  cases formError errURL status with
  | some e => rfl
  | none =>
    simp only [Prog.eval_bind, eval_queryServiceRegistry]
    congr 1
    funext root
    cases root with
    | none => rfl
    | some root =>
      simp only [Prog.eval_bind, eval_own]
      congr 1
      funext data
      split_ifs
      · rfl
      · exact eval_answerEntries w form (values data)

end

/-- The requests that are sent in this world. -/
def contacts (w : World) (form : ServiceRequestForm) (errURL : List UInt8) : List Contact :=
  (dynamicOrchestration w form errURL).given (answersOf w)

/-- An error of the check is answered without a request. -/
lemma contacts_of_error {w : World} {form : ServiceRequestForm} {errURL : List UInt8} {status : Nat} {e : Answer}
    (checked : checkServiceRequestForm form = some status) (h : formError errURL status = some e) :
    contacts w form errURL = [] := by
  rw [contacts, dynamicOrchestration, checked, own, Prog.done_bind, h]
  rfl

end Exchange

end ArrowheadCore.Orchestrator
