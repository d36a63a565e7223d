import Pubsub.Request.Interpret

/-!
# What an attempt comes to

One attempt at a request ends in a reply, whatever its status, or in a failure to get one.
`classify` turns either into a result: it is total, and the only thing it lets through is the
refusal of a bare request to interpret anything.
-/

namespace Pubsub

/-- The outcome of one attempt. -/
inductive Outcome where
  /-- A response was received. -/
  | reply (status : Int) (content : Bytes)
  /-- No response was received. -/
  | failure (code : Code) (text : Option String)
deriving Inhabited

namespace Outcome

/-- The outcome as messages show it. -/
def display : Outcome → String
  | reply status content =>
    "<Reply " ++ toString status ++ " (" ++ toString content.length ++ " bytes)>"
  | failure code text => "<Failure " ++ code.name ++ ": " ++ text.getD "None" ++ ">"

end Outcome

/-- Is the status one of success? -/
def isSuccessStatus (status : Int) : Bool := 200 ≤ status && status ≤ 299

/-- The result of one attempt. -/
def Request.classify (r : Request) : Outcome → Except Error Result
  | .failure code text => .ok (Result.plain r.kind code (.value .null) text)
  | .reply status content =>
    if !isSuccessStatus status then
      let body := match decodeContent content with
        | .ok body => body
        | .error _ => .null
      .ok (Result.plain r.kind .httpError (.value body)
        (some ("HTTP status " ++ toString status)))
    else match decodeContent content with
      | .error e => .ok (Result.plain r.kind .formatError (.value .null) (some e.message))
      | .ok body =>
        match r.interpret body with
        | .ok result => .ok result
        | .error (.malformedResponse reason) =>
          .ok (Result.plain r.kind .formatError (.value body) (some reason))
        | .error e => .error e

end Pubsub
