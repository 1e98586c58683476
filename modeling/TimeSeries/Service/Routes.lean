import TimeSeries.Cache.Document
import TimeSeries.PutLine
import TimeSeries.Query.Decode
import TimeSeries.Service.Exposition
import TimeSeries.Service.MediaType
import TimeSeries.Service.Message
import TimeSeries.Text.FormFields

/-!
# The routes of the service

Every path that the service knows takes one method: some take samples or queries that a client
posts, the others tell something about the service to a client that gets it.  Where getting is
allowed, a client may also ask for the head of the response alone.  Clients in browsers may ask for
their options on any path.

Main function: `Cache.respond` is the response to a request, and the cache behind it.
-/

set_option autoImplicit false

namespace TimeSeries

/-- The number of this release. -/
def version : String := "0.1.0"

/-- What a path stands for. -/
inductive Route where
  | health
  | ping
  | put
  | query
  | status
  | exposition
  deriving DecidableEq, Repr, Inhabited

namespace Route

def ofPath? (path : String) : Option Route :=
  match path with
  | "/health" => some .health
  | "/ping" => some .ping
  | "/api/put" => some .put
  | "/api/query" => some .query
  | "/api/cache" => some .status
  | "/metrics" => some .exposition
  | _ => none

/-- The method by which a route is reached. -/
def method : Route → String
  | .put | .query => "POST"
  | _ => "GET"

end Route

namespace Request

/-- The target without a fragment. -/
def address (request : Request) : List Char := request.target.toList.takeWhile (· != '#')

def path (request : Request) : String :=
  String.ofList (request.address.takeWhile (· != '?'))

/-- The fields of the form in the target. -/
def fields (request : Request) : List (String × String) :=
  Text.formFields (String.ofList ((request.address.dropWhile (· != '?')).drop 1))

/-- The body is a document. -/
def hasDocument (request : Request) : Bool :=
  (request.contentType.bind MediaType.ofText?).any MediaType.isJson

end Request

/-! ## Taking samples -/

/-- Stores the samples that could be read off numbered lines, in turn, and says for each line whether
its sample was stored. -/
def Cache.storeLines (cache : Cache) :
    List (Nat × Except Failure Sample) → Cache × List (Nat × Except Failure Unit)
  | [] => (cache, [])
  | (line, parsed) :: rest =>
      let (cache, stored) := match parsed with
        | .ok sample => cache.store sample.series sample.point
        | .error failure => (cache, .error failure)
      let (cache, outcomes) := cache.storeLines rest
      (cache, (line, stored) :: outcomes)

/-- The lines whose samples were not stored. -/
def lineErrors (outcomes : List (Nat × Except Failure Unit)) : List LineError :=
  outcomes.filterMap fun (line, stored) =>
    match stored with
    | .ok () => none
    | .error failure => some ⟨line, failure.message⟩

/-- The document of a line that could not be taken. -/
def LineError.toJson (error : LineError) : Json :=
  .record [("line", .ofCount error.line), ("error", .string error.message)]

/-- The response to a text of which some lines were not stored. -/
def lineReport (successes : Nat) (errors : List LineError) : Response :=
  ⟨.badRequest, .document (.record [("success", .ofCount successes),
    ("failed", .ofCount errors.length), ("errors", .ofList LineError.toJson errors)])⟩

/-- Stores the samples of a text and reports the lines that failed. -/
def Cache.putText (cache : Cache) (text : String) (precision : Precision) : Cache × Response :=
  let (cache, outcomes) := cache.storeLines (parseNumbered text precision)
  let errors := lineErrors outcomes
  if errors.isEmpty then
    (cache, ⟨.noContent, .text ""⟩)
  else
    (cache, lineReport (outcomes.length - errors.length) errors)

/-- Serves a request to take samples; the form may name the unit of their timestamps. -/
def Cache.put (cache : Cache) (request : Request) : Cache × Response :=
  match request.fields.filter fun field => field.1 == "precision" with
  | [] => cache.putText request.body .milliseconds
  | [(_, name)] =>
      match Precision.ofName? name with
      | some precision => cache.putText request.body precision
      | none => (cache, .fault .badRequest ("Unknown precision: " ++ name))
  | _ => (cache, .refusal .badRequest)

/-! ## Answering queries -/

/-- The status of a failure to answer. -/
def Failure.status : Failure → Status
  | .query _ | .format _ | .outOfOrder _ _ | .configuration _ => .badRequest
  | _ => .internalError

/-- Serves a request with a query in its body. -/
def Cache.query (cache : Cache) (request : Request) (now : Timestamp) : Cache × Response :=
  if request.hasDocument then
    match Query.ofJson (Json.front request.body) with
    | .error .syntactic => (cache, .refusal .badRequest)
    | .error .shape => (cache, .refusal .unprocessable)
    | .ok query =>
        match cache.ask query now with
        | (cache, .ok answer) => (cache, .document answer.toJson)
        | (cache, .error failure) => (cache, .fault failure.status failure.message)
  else
    (cache, .refusal .unsupportedMediaType)

/-! ## All routes -/

/-- The response of a route to a request, at a given time. -/
def Cache.follow (cache : Cache) (route : Route) (request : Request) (now : Timestamp) :
    Cache × Response :=
  match route with
  | .health =>
      (cache, .document (.record [("status", .string "ok"), ("version", .string version)]))
  | .ping => (cache, ⟨.ok, .text "pong"⟩)
  | .put => cache.put request
  | .query => cache.query request now
  | .status => (cache, .document cache.status.toJson)
  | .exposition => (cache, ⟨.ok, .text cache.status.exposition⟩)

/-- The response to a request, at a given time. -/
def Cache.respond (cache : Cache) (request : Request) (now : Timestamp) : Cache × Response :=
  if request.method = "OPTIONS" then
    (cache, ⟨.ok, .text ""⟩)
  else
    match Route.ofPath? request.path with
    | none => (cache, .refusal .notFound)
    | some route =>
        if request.method = route.method then
          cache.follow route request now
        else if request.method = "HEAD" ∧ route.method = "GET" then
          let (cache, response) := cache.follow route request now
          (cache, response.withoutContent)
        else
          (cache, .refusal .methodNotAllowed)

end TimeSeries
