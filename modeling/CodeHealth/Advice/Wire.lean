import CodeHealth.Advice.Request
import CodeHealth.Json.Reader

/-!
Chat completions as they are sent to a service, and the reading of its answer.
-/

namespace CodeHealth.Advice

/-- A single as a JSON number: the double that its shortest decimal reads as. -/
def jsonOfSingle (x : Float32) : Json :=
  if x.isFinite then
    let magnitude := Decimal.Binary.ofBits32 x.toBits
    let d := magnitude.shortest .upward
    let double := if magnitude.m = 0 then 0.0
      else Float.ofScientific d.digits (d.exp < 0) d.exp.natAbs
    .float (if x.toBits >>> 31 == 1 then -double else double)
  else .null

def Message.toJson (msg : Message) : Json :=
  .object [("role", .string msg.role.name), ("content", .string msg.content)]

def Request.toJson (r : Request) : Json :=
  .object
    [("model", .string r.model), ("messages", .array (r.messages.map (·.toJson))),
      ("max_tokens", .ofNat r.maxTokens), ("temperature", jsonOfSingle r.temperature)]

/-- What is sent over the network. -/
structure HttpRequest where
  method : String
  contentType : String
  authorization : Option String
  apiKey : Option String
  body : Json

/-- What is sent to a service that wants no key. -/
def Request.toHttp (r : Request) : HttpRequest :=
  ⟨"POST", "application/json", none, none, r.toJson⟩

/-- What comes back from the network. -/
structure HttpReply where
  status : Nat
  body : String
deriving DecidableEq, Repr

def answerShape : Json.Shape :=
  .record "OpenAiResponse"
    [("choices", true, .list (.record "OpenAiChoice"
      [("message", true, .record "OpenAiMessage"
        [("content", false, .optional .string)])]))]

/-- The text of the first choice of an answer; nothing said is the empty text. -/
def firstChoice (answer : Json) : String :=
  match (answer.get? "choices").bind Json.asArray? with
  | some (choice :: _) =>
    (((choice.get? "message").bind (·.get? "content")).bind Json.asString?).getD ""
  | _ => ""

namespace HttpReply

/-- The text that belongs to a reply; some statuses never come with one. -/
def content (reply : HttpReply) : String :=
  if reply.status = 204 ∨ reply.status = 304 then "" else reply.body

/-- Whether a reply sends the request elsewhere. -/
def isRedirection (reply : HttpReply) : Bool :=
  300 ≤ reply.status && reply.status < 400 && reply.status != 304

/-- What a reply comes to. A redirection does not say where to, so it cannot be followed. -/
def outcome (reply : HttpReply) : Outcome :=
  if reply.isRedirection then .error (.other 0 "protocol: missing a location header")
  else if 400 ≤ reply.status then .error (.ofStatus reply.status reply.content)
  else
    let text := reply.content.toList
    match Json.readShape answerShape text with
    | .ok answer => .ok (firstChoice answer)
    | .error stop => .error (.other 200 ("unexpected response body: " ++ stop.message text))

end HttpReply

end CodeHealth.Advice
