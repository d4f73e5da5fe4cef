/-!
# JSON values and replies

What `c.JSON` puts on the wire: an object keeps its members in the order of the
struct's fields.  A `Reply` is the body of a handler's answer; `coded` is a
failure with an error code, `panicked` the 500 of the recovery middleware.
-/

namespace AuthGateway.Common

inductive Json
  | null
  | bool (b : Bool)
  | num (n : Int)
  | str (s : String)
  | arr (items : List Json)
  | obj (members : List (String × Json))

/-- A pointer field: `null` when nil. -/
def Json.ofOption {α : Type} (f : α → Json) : Option α → Json
  | none => null
  | some a => f a

/-- A member of an object. -/
def Json.member? (name : String) : Json → Option Json
  | obj members => (members.find? fun m => m.1 == name).map Prod.snd
  | _ => none

/-- The answer of a handler. -/
inductive Reply
  | json (status : Nat) (success : Bool) (message : String) (data : Option Json)
  | coded (status : Nat) (message code : String)
  | redirect (status : Nat) (location : String)
  | none
  | panicked

namespace Reply

/-- `c.JSON(http.StatusOK, gin.H{"success": false, "message": msg})`. -/
def failure (msg : String) : Reply := json 200 false msg .none

/-- `c.JSON(http.StatusOK, gin.H{"success": true, "message": msg})`. -/
def done (msg : String) : Reply := json 200 true msg .none

/-- `common.ApiSuccess`. -/
def apiSuccess (data : Json) : Reply := json 200 true "" (some data)

end Reply

end AuthGateway.Common
