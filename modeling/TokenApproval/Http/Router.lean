import TokenApproval.Approval.Service
import TokenApproval.Data

/-!
# The HTTP interface

Which answer each request gets, and which warnings are logged on the way.

## Envelopes

A ping, a claim and a registration are answered with an envelope: a code with either the data asked
for or the text of an error.
-/

namespace TokenApproval

open Data (Reader Shape Field Tree)

/-- The outcome of a request. -/
inductive ResponseCode where
  | success
  | invalidRequest
deriving DecidableEq, Repr

namespace ResponseCode

def toNat : ResponseCode → Nat
  | .success => 0
  | .invalidRequest => 1

def reader : Reader ResponseCode :=
  Reader.mapM Reader.uint8 fun code =>
    if code = 0 then .ok .success
    else if code = 1 then .ok .invalidRequest
    else .error (.unknownCode code.toNat)

end ResponseCode

/-- A code with data or an error. -/
structure Envelope (α : Type) where
  code : ResponseCode
  data : Option α
  error : Option String
deriving DecidableEq

namespace Envelope

variable {α : Type}

def success (data : α) : Envelope α := ⟨.success, some data, none⟩

def invalid (error : String) : Envelope α := ⟨.invalidRequest, none, some error⟩

def shape (reader : Reader α) (write : α → Tree) : Shape (Envelope α) where
  title := "Envelope"
  blank := ⟨.success, none, none⟩
  fields := [
    .required "code" ResponseCode.reader (fun v r => { r with code := v })
      (fun r => .integer r.code.toNat),
    .optional "data" (Reader.optional reader) (fun v r => { r with data := v })
      (fun r => r.data) write,
    .optional "error" (Reader.optional Reader.text) (fun v r => { r with error := v })
      (fun r => r.error) Tree.text]

def textShape : Shape (Envelope String) := shape Reader.text Tree.text

end Envelope

end TokenApproval

/-! ## Requests and answers

Three paths are served: a ping, claims and registrations. Requests to the latter two are answered
with status 200 whether they are approved or not; the envelope in the body tells. Any other origin
may read the answers. -/

namespace TokenApproval.Http

open Data (Reader Shape Tree)

/-- A request as the transport delivers it. -/
structure Request where
  method : String
  /-- The path with its query; a scheme and an authority may stand before it. -/
  target : String
  body : Bytes

/-- An answer; header names are in lower case. -/
structure Response where
  status : Nat
  headers : List (String × String)
  body : String
deriving DecidableEq

/-- A warning in the log. -/
inductive Warning where
  | strayProof (account denom : String) (leaf : Octets 32)
  | rejected (error : ApprovalError)
deriving DecidableEq

def rejectedMessage : String := "request rejected"

/-- A path that is served. -/
inductive Route where
  | ping
  | claim
  | register
deriving DecidableEq, Repr

namespace Route

def ofPath? (path : String) : Option Route :=
  if path = "/ping" then some .ping
  else if path = "/claim-approval" then some .claim
  else if path = "/register-token-approval" then some .register
  else none

/-- The methods that a route takes, as a header lists them. -/
def allowed : Route → String
  | .ping => "GET,HEAD"
  | .claim => "POST"
  | .register => "POST"

/-- Whether a route takes a method. -/
def takes (route : Route) (method : String) : Bool :=
  match route with
  | .ping => method == "GET" || method == "HEAD"
  | .claim => method == "POST"
  | .register => method == "POST"

end Route

def isSchemeChar (c : Char) : Bool := c.isAlphanum || c == '+' || c == '-' || c == '.'

/-- A target without the scheme and the authority that it starts with, if it does. -/
def withoutAuthority (target : List Char) : List Char :=
  match target.dropWhile isSchemeChar with
  | ':' :: '/' :: '/' :: rest => rest.dropWhile fun c => c != '/' && c != '?' && c != '#'
  | _ => target

/-- The path of a target, without query and fragment. -/
def pathOf (target : String) : String :=
  String.ofList ((withoutAuthority target.toList).takeWhile fun c => c != '?' && c != '#')

/-! ### Answers -/

/-- The header that lets any origin read an answer. -/
def anyOrigin : String × String := ("access-control-allow-origin", "*")

def bodyLimit : Nat := 2097152

/-- An answer with a JSON body. -/
def json (tree : Tree) : Response :=
  ⟨200, [("content-type", "application/json"), anyOrigin], Json.render tree⟩

def notFound : Response := ⟨404, [anyOrigin], ""⟩

def notAllowed (route : Route) : Response := ⟨405, [("allow", route.allowed), anyOrigin], ""⟩

def tooLarge : Response :=
  ⟨413, [("content-type", "text/plain; charset=utf-8"), anyOrigin],
    "Failed to buffer the request body: length limit exceeded"⟩

/-- The answer to a question for what other origins may do. -/
def preflight (route : Option Route) : Response :=
  ⟨200,
    (route.map fun route => ("allow", route.allowed)).toList
      ++ [anyOrigin, ("access-control-allow-methods", "GET,POST"),
        ("access-control-allow-headers", "*")],
    ""⟩

/-! ### Approvals -/

/-- The warnings among the events of a run. -/
def warningsOf (events : List Event) : List Warning :=
  events.filterMap fun
    | .strayProof account denom leaf => some (.strayProof account denom leaf)
    | _ => none

/-- Reads a body as a request and runs the service on it. -/
def approve {ρ σ : Type} (shape : Shape ρ) (run : ρ → Run σ) (body : Bytes) :
    Envelope σ × List Warning :=
  match Json.decode shape.read body with
  | .error fault =>
    let error := ApprovalError.badRequest (.body fault)
    (.invalid error.message, [.rejected error])
  | .ok request =>
    match (run request).outcome with
    | (.ok response, events) => (.success response, warningsOf events)
    | (.error error, events) => (.invalid error.message, warningsOf events ++ [.rejected error])

def claim (service : ApprovalService) (body : Bytes) : Response × List Warning :=
  let (envelope, warnings) := approve ClaimRequest.shape service.claim body
  (json ((Envelope.shape ClaimResponse.shape.read ClaimResponse.shape.write).write envelope),
    warnings)

def register (service : ApprovalService) (body : Bytes) : Response × List Warning :=
  let (envelope, warnings) := approve RegisterRequest.shape service.register body
  (json ((Envelope.shape RegisterResponse.shape.read RegisterResponse.shape.write).write envelope),
    warnings)

def ping : Response := json (Envelope.textShape.write (.success "pong"))

/-- The answer to a request. -/
def answer (service : ApprovalService) (request : Request) : Response × List Warning :=
  let route := Route.ofPath? (pathOf request.target)
  if request.method = "OPTIONS" then (preflight route, [])
  else
    match route with
    | none => (notFound, [])
    | some route =>
      if !route.takes request.method then (notAllowed route, [])
      else
        match route with
        | .ping => (if request.method = "HEAD" then { ping with body := "" } else ping, [])
        | .claim =>
          if bodyLimit < request.body.length then (tooLarge, []) else claim service request.body
        | .register =>
          if bodyLimit < request.body.length then (tooLarge, [])
          else register service request.body

end TokenApproval.Http
