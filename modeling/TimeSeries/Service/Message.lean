import TimeSeries.Json.Basic

/-!
# Requests and responses

What a client asks of the service over HTTP, and what it is told.
-/

set_option autoImplicit false

namespace TimeSeries

/-- A request of a client. -/
structure Request where
  method : String
  /-- The path, and behind a question mark the fields of a form. -/
  target : String
  /-- The media type of the body, if the client names one. -/
  contentType : Option String
  body : String
  deriving DecidableEq, Repr, Inhabited

/-- Whether a request was served, and if not, why. -/
inductive Status where
  | ok
  /-- Served, and there is nothing to be told. -/
  | noContent
  | badRequest
  | notFound
  | methodNotAllowed
  | unsupportedMediaType
  /-- The body is a document of another shape than the request wants. -/
  | unprocessable
  | internalError
  deriving DecidableEq, Repr, Inhabited

/-- The number of a status. -/
def Status.code : Status → Nat
  | .ok => 200
  | .noContent => 204
  | .badRequest => 400
  | .notFound => 404
  | .methodNotAllowed => 405
  | .unsupportedMediaType => 415
  | .unprocessable => 422
  | .internalError => 500

/-- The body of a response. -/
inductive Body where
  | text (content : String)
  | document (content : Json)
  /-- Something for people to read, in no fixed wording. -/
  | remark
  deriving Repr, Inhabited

/-- A response to a request. -/
structure Response where
  status : Status
  body : Body
  deriving Repr, Inhabited

namespace Response

/-- The request is served, and this is the answer. -/
def document (content : Json) : Response := ⟨.ok, .document content⟩

/-- The request is not served. -/
def refusal (status : Status) : Response := ⟨status, .remark⟩

/-- The request is not served, for a reason that is told in a document. -/
def fault (status : Status) (reason : String) : Response :=
  ⟨status, .document (.object [("error", .string reason)] true)⟩

/-- The response without its content. -/
def withoutContent (response : Response) : Response := { response with body := .text "" }

end Response

end TimeSeries
