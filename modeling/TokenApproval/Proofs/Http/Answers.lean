import TokenApproval.Http.Router
import TokenApproval.Proofs.Approval.Evidence
import TokenApproval.Proofs.Json.Records

/-!
# Answers mirror the service

A handler reads a body, runs the service on what it reads and writes an envelope. The two handlers
differ in the shapes of request and response and in the approval that they run, and in nothing else,
so what an answer says is proved once, of `handle`.

Two things meet there. Which envelope is written is a case analysis: of the body, which is read or
not, and of the run, which ends with a response or a refusal. That the envelope is found in the
answer again is the round trip of JSON documents, for an envelope whose data is a response.
-/

namespace TokenApproval

open Data (Tree Reader Shape Field)

namespace Envelope

variable {σ : Type} {response : Shape σ}

/-- The form of envelopes with a response. -/
def shapeOf (response : Shape σ) : Shape (Envelope σ) := shape response.read response.write

theorem restores (hnames : (response.fields.map Field.name).Nodup)
    (hresponse : ∀ record, response.Restores record) (envelope : Envelope σ) :
    (shapeOf response).Restores envelope :=
  restores_shape (fun record => Shape.fits_write (hresponse record))
    (fun record => Reader.optional_read (Shape.read_write hnames (hresponse record))) envelope

end Envelope

namespace Http

variable {ρ σ : Type} {request : Shape ρ} {response : Shape σ} {run : ρ → Run σ} {body : Bytes}

/-! ## Which envelope is written -/

/-- An envelope says what the service makes of a body: the response, or why there is none. -/
structure Mirrors (request : Shape ρ) (run : ρ → Run σ) (body : Bytes)
    (envelope : Envelope σ) : Prop where
  success_iff : ∀ approved, envelope = .success approved ↔
    ∃ decoded, Json.decode request.read body = .ok decoded ∧ (run decoded).result = .ok approved
  refused : ∀ decoded error, Json.decode request.read body = .ok decoded →
    (run decoded).result = .error error → envelope = .invalid error.message
  unreadable : ∀ fault, Json.decode request.read body = .error fault →
    envelope = .invalid ("bad request: invalid request body: " ++ fault.message)
  /-- There is no code of success without a whole response, or with an error. -/
  whole : envelope.code = .success → ∃ approved, envelope = .success approved
  exclusive : envelope.data.isSome = !envelope.error.isSome

theorem approve_of_unreadable {fault : Data.Fault} (run : ρ → Run σ)
    (h : Json.decode request.read body = .error fault) :
    approve request run body = (.invalid (ApprovalError.badRequest (.body fault)).message,
      [.rejected (.badRequest (.body fault))]) := by
  rw [approve, h]

theorem approve_of_refused {decoded : ρ} {error : ApprovalError}
    (hbody : Json.decode request.read body = .ok decoded)
    (hresult : (run decoded).result = .error error) :
    (approve request run body).1 = .invalid error.message := by
  have houtcome : (run decoded).outcome = (.error error, (run decoded).events) :=
    Prod.ext hresult rfl
  rw [approve, hbody]
  simp only [houtcome]

theorem approve_of_approved {decoded : ρ} {approved : σ}
    (hbody : Json.decode request.read body = .ok decoded)
    (hresult : (run decoded).result = .ok approved) :
    (approve request run body).1 = .success approved := by
  have houtcome : (run decoded).outcome = (.ok approved, (run decoded).events) :=
    Prod.ext hresult rfl
  rw [approve, hbody]
  simp only [houtcome]

theorem approve_cases (request : Shape ρ) (run : ρ → Run σ) (body : Bytes) :
    (∃ error, (approve request run body).1 = .invalid error)
      ∨ ∃ decoded approved, Json.decode request.read body = .ok decoded
        ∧ (run decoded).result = .ok approved
        ∧ (approve request run body).1 = .success approved := by
  cases hbody : Json.decode request.read body with
  | error fault => exact .inl ⟨_, congrArg Prod.fst (approve_of_unreadable run hbody)⟩
  | ok decoded =>
    cases hresult : (run decoded).result with
    | error error => exact .inl ⟨_, approve_of_refused hbody hresult⟩
    | ok approved => exact .inr ⟨_, _, rfl, hresult, approve_of_approved hbody hresult⟩

theorem approve_mirrors (request : Shape ρ) (run : ρ → Run σ) (body : Bytes) :
    Mirrors request run body (approve request run body).1 := by
  constructor
  case success_iff =>
    intro approved
    constructor
    · intro h
      rcases approve_cases request run body with
        ⟨error, hinvalid⟩ | ⟨decoded, other, hbody, hresult, hother⟩
      · cases hinvalid.symm.trans h
      · have hdata := congrArg Envelope.data (hother.symm.trans h)
        rw [← Option.some.inj hdata]
        exact ⟨decoded, hbody, hresult⟩
    · rintro ⟨decoded, hbody, hresult⟩
      exact approve_of_approved hbody hresult
  case refused =>
    intro decoded error hbody hresult
    exact approve_of_refused hbody hresult
  case unreadable =>
    intro fault hbody
    exact congrArg Prod.fst (approve_of_unreadable run hbody)
  case whole =>
    intro hcode
    rcases approve_cases request run body with ⟨error, h⟩ | ⟨_, approved, -, -, h⟩
    · rw [h] at hcode
      cases hcode
    · exact ⟨approved, h⟩
  case exclusive =>
    rcases approve_cases request run body with ⟨error, h⟩ | ⟨_, approved, -, -, h⟩
    · rw [h]
      rfl
    · rw [h]
      rfl

/-! ## Answers -/

/-- The answer is one of status 200 with the envelope as its JSON body. -/
structure Delivers (answer : Response) (response : Shape σ) (envelope : Envelope σ) : Prop where
  status : answer.status = 200
  content : ("content-type", "application/json") ∈ answer.headers
  body : Json.decode (Envelope.shapeOf response).read (Text.bytes answer.body) = .ok envelope

theorem json_delivers (hnames : (response.fields.map Field.name).Nodup)
    (hresponse : ∀ record, response.Restores record) (envelope : Envelope σ) :
    Delivers (json ((Envelope.shapeOf response).write envelope)) response envelope := by
  have hrestores := Envelope.restores hnames hresponse envelope
  have hfields : ((Envelope.shapeOf response).fields.map Field.name).Nodup := by
    show ["code", "data", "error"].Nodup
    decide
  constructor
  case status => rfl
  case content => exact List.mem_cons_self
  case body =>
    have hread := Shape.read_write hfields hrestores
    exact Json.decode_render (Shape.fits_write hrestores) hread

/-- Answers a body as the handlers do. -/
def handle (request : Shape ρ) (response : Shape σ) (run : ρ → Run σ) (body : Bytes) :
    Response × List Warning :=
  let (envelope, warnings) := approve request run body
  (json ((Envelope.shapeOf response).write envelope), warnings)

/-- A handler of requests of one shape answers each body for the service. -/
structure Serves (request : Shape ρ) (response : Shape σ) (run : ApprovalService → ρ → Run σ)
    (handler : ApprovalService → Bytes → Response × List Warning) : Prop where
  mirrored : ∀ service body, ∃ envelope, Delivers (handler service body).1 response envelope
    ∧ Mirrors request (run service) body envelope
  /-- A body that is no request is answered, and its rejection logged, without the ledger and the
  signer of the service. -/
  unread : ∀ body fault, Json.decode request.read body = .error fault → ∀ service,
    (handler service body).2 = [.rejected (.badRequest (.body fault))]
      ∧ ∀ other, handler other body = handler service body

theorem serves_handle (run : ApprovalService → ρ → Run σ)
    (hnames : (response.fields.map Field.name).Nodup)
    (hresponse : ∀ record, response.Restores record) :
    Serves request response run fun service => handle request response (run service) := by
  constructor
  case mirrored =>
    intro service body
    have hmirrors := approve_mirrors request (run service) body
    exact ⟨_, json_delivers hnames hresponse _, hmirrors⟩
  case unread =>
    intro body fault hbody service
    have hhandled (service : ApprovalService) := approve_of_unreadable (run service) hbody
    constructor
    · rw [handle, hhandled]
    · intro other
      rw [handle, handle, hhandled, hhandled]

/-- Up to the limit of the framework, the two handlers are given the bodies for their paths. -/
theorem answer_post (service : ApprovalService) {delivered : Request}
    (hmethod : delivered.method = "POST") (hlength : delivered.body.length ≤ bodyLimit) :
    (pathOf delivered.target = "/claim-approval" →
        answer service delivered = claim service delivered.body)
      ∧ (pathOf delivered.target = "/register-token-approval" →
        answer service delivered = register service delivered.body) := by
  have hfits : ¬ bodyLimit < delivered.body.length := Nat.not_lt.mpr hlength
  constructor
  · intro hpath
    rw [answer, hpath, hmethod]
    exact if_neg hfits
  · intro hpath
    rw [answer, hpath, hmethod]
    exact if_neg hfits

/-- **Answers mirror the service.** Whatever the body, the answer to a claim and the one to a
registration is an envelope that is read back from it: with the response that the service gives to
the request in the body, or with the text of its refusal, or of why the body is no request, in which
case the service is not asked. -/
theorem answers_mirror_service :
    Serves ClaimRequest.shape ClaimResponse.shape ApprovalService.claim claim
      ∧ Serves RegisterRequest.shape RegisterResponse.shape ApprovalService.register register
      ∧ ∀ service (delivered : Request), delivered.method = "POST" →
        delivered.body.length ≤ bodyLimit →
        (pathOf delivered.target = "/claim-approval" →
            answer service delivered = claim service delivered.body)
          ∧ (pathOf delivered.target = "/register-token-approval" →
            answer service delivered = register service delivered.body) := by
  refine ⟨?claims, ?registrations, fun service _ => answer_post service⟩
  case claims => exact serves_handle ApprovalService.claim (by decide) ClaimResponse.restores
  case registrations =>
    exact serves_handle ApprovalService.register (by decide) RegisterResponse.restores

/-! ## An approval, and a body that breaks off -/

theorem answers_mirror_sample :
    Delivers (claim Sample.service
        (Text.bytes (Json.render (ClaimRequest.shape.write Sample.claimRequest)))).1
        ClaimResponse.shape (.success Sample.evidence.response)
      ∧ Delivers (claim Sample.service (Text.bytes "\x7b\"token_symbol\":")).1 ClaimResponse.shape
        (.invalid "bad request: invalid request body: malformed JSON") := by
  have hmirrored := answers_mirror_service.1.mirrored Sample.service
  constructor
  · obtain ⟨envelope, hdelivers, hmirrors⟩ := hmirrored
      (Text.bytes (Json.render (ClaimRequest.shape.write Sample.claimRequest)))
    have hrestores := Sample.claimRequest.restores
    have hdecoded := Json.decode_render (Shape.fits_write hrestores)
      (Shape.read_write (by decide) hrestores)
    have happroved := ApprovalService.claim_of_supports Sample.evidence_supports
    rw [← (hmirrors.success_iff _).mpr ⟨_, hdecoded, happroved⟩]
    exact hdelivers
  · obtain ⟨envelope, hdelivers, hmirrors⟩ := hmirrored (Text.bytes "\x7b\"token_symbol\":")
    have hbroken : Json.decode ClaimRequest.shape.read (Text.bytes "\x7b\"token_symbol\":") =
        .error .malformed := by
      decide +kernel
    have henvelope : envelope = .invalid "bad request: invalid request body: malformed JSON" :=
      hmirrors.unreadable _ hbroken
    rw [← henvelope]
    exact hdelivers

end Http

end TokenApproval
