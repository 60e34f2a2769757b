import CodeHealth.Advice.Wire

/-!
Requests and replies as they go over a connection. Each connection serves one exchange: the reply
ends where the connection does.
-/

namespace CodeHealth.Advice

/-- The bytes of a request to a place on a host. -/
def HttpRequest.bytes (r : HttpRequest) (host place : String) : ByteArray :=
  let body := r.body.compact.toUTF8
  let field (name : String) (value : Option String) : List String :=
    (value.map fun v => name ++ ": " ++ v).toList
  let head := [r.method ++ " " ++ place ++ " HTTP/1.0", "Host: " ++ host,
      "Content-Type: " ++ r.contentType, "Content-Length: " ++ toString body.size] ++
    field "Authorization" r.authorization ++ field "x-api-key" r.apiKey
  (String.join (head.map (· ++ "\r\n")) ++ "\r\n").toUTF8 ++ body

/-- What comes behind the empty line that ends the head of a reply. -/
def bodyOf : List Char → List Char
  | '\r' :: '\n' :: '\r' :: '\n' :: rest => rest
  | _ :: rest => bodyOf rest
  | [] => []

namespace HttpReply

/-- Reads a reply: its status stands between the first two blanks. -/
def ofBytes? (bytes : ByteArray) : Option HttpReply := do
  let text := (← String.fromUTF8? bytes).toList
  let status := ((text.dropWhile (· ≠ ' ')).drop 1).takeWhile Char.isDigit
  let code ← (String.ofList status).toNat?
  pure ⟨code, String.ofList (bodyOf text)⟩

/-- What the bytes of a reply come to. -/
def outcomeOfBytes (bytes : ByteArray) : Outcome :=
  match ofBytes? bytes with
  | some reply => reply.outcome
  | none => .error (.other 0 "the reply cannot be read")

end HttpReply

end CodeHealth.Advice
