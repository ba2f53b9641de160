import ShaderShrink.Job.Scope
import ShaderShrink.Verdict

/-!
# Remote runners

A runner that sends jobs to a service for shader execution. A job is validated on the spot; to run
it, a `RemoteClient` posts a request with the token of the user, the language and the job, and the
service answers with a job result.

What carries requests to the service is a parameter (`Transport`). `Transport.offline` carries
nothing: every job ends with a transport failure.
-/

namespace ShaderShrink

/-- A request that posts a body to a service. -/
structure PostRequest where
  url : String
  body : String
  deriving DecidableEq, Repr

/-- The answer of a service. -/
structure PostReply where
  /-- The number that says how the request went. -/
  code : Nat
  body : String
  deriving DecidableEq, Repr

/-- Whether a request was served. -/
def PostReply.isSuccess (r : PostReply) : Bool := 200 ≤ r.code && r.code < 300

/-- What carries requests, in a world of type `σ`; if there is no answer, it says why. -/
abbrev Transport (σ : Type) := PostRequest → σ → Except String PostReply × σ

/-- A transport without a network. -/
def Transport.offline {σ : Type} : Transport σ := fun _ s => (.error "no network", s)

/-- A client of a service for shader execution. -/
structure RemoteClient where
  /-- Where requests are posted. -/
  endpoint : String
  /-- What identifies the user. -/
  token : String
  /-- The language of the jobs. -/
  language : String
  deriving DecidableEq, Repr

namespace RemoteClient

/-- Where a service takes requests, below its base address. -/
def servicePath : String := "manageAPI"

/-- The starts of the addresses of services. -/
def schemes : List String := ["http://", "https://"]

/-- A text without the slashes at its end. -/
def trimSlashes (text : String) : String :=
  String.ofList (text.toList.reverse.dropWhile (· = '/')).reverse

/-- Whether a text is the address of a service. -/
def isServiceAddress (text : String) : Bool :=
  schemes.any fun scheme => scheme.toList.isPrefixOf text.toList

/-- What is said about a base address of the wrong form. -/
def addressProblem (baseUrl : String) : String :=
  "base url `" ++ baseUrl ++ "` must start with http:// or https://"

/-- The client of the service with a base address. Slashes at the end of the address do not
count. -/
def create (baseUrl token language : String) : Except OracleError RemoteClient :=
  let base := trimSlashes baseUrl
  if isServiceAddress base then .ok ⟨base ++ "/" ++ servicePath, token, language⟩
  else .error (.config (addressProblem baseUrl))

/-- The body of the request to run a job. -/
def requestBody (c : RemoteClient) (job : String) : String :=
  Json.compact (.obj [("token", .str c.token), ("language", .str c.language), ("job", .str job)])

/-- What a reply to a request says about the job. -/
def replyOf : Except String PostReply → RunReply
  | .error text => .failed (.transport text)
  | .ok reply =>
    if reply.isSuccess then
      match Json.decode JobResult.ofJson reply.body with
      | .ok result => .result result
      | .error cause => .failed (.decode cause.category)
    else .failed (.status reply.code reply.body)

/-- Runs jobs on the service. -/
def runner {σ : Type} (c : RemoteClient) (send : Transport σ) : Runner σ where
  validate text s := ((ShaderJob.validate text).isOk, s)
  run text s :=
    let (reply, s) := send ⟨c.endpoint, c.requestBody text⟩ s
    (replyOf reply, s)

end RemoteClient

end ShaderShrink
