import AuthGateway.Common.Redis

/-!
# Objects of any type: RedisHSetObj and RedisHGetObj

The two functions of `common/redis.go` go through the fields of a struct by
reflection.  A field is its name, whether it is exported, and its value, which
tells its type.  What reflection does to a field that is not exported is to
panic.
-/

namespace AuthGateway.Common

open GoString

/-! ### Values -/

inductive BasicType
  | string
  | int
  | int64
  | bool
deriving DecidableEq

abbrev BasicType.Val : BasicType → Type
  | string => String
  | int | int64 => Int64
  | bool => Bool

def BasicType.zero : (t : BasicType) → t.Val
  | string => ""
  | int | int64 => 0
  | bool => false

/-- `%v`, and `FormatBool`. -/
def BasicType.print : (t : BasicType) → t.Val → String
  | string, s => s
  | int, n | int64, n => itoa n.toInt
  | bool, b => formatBool b

/-- The value of a field, of one of the types that can be read. -/
inductive FieldValue
  | basic (t : BasicType) (v : t.Val)
  | pointer (t : BasicType) (target : Option t.Val)
  /-- A `gorm.DeletedAt`, and its time if it is valid. -/
  | deletedAt (time : Option Int)

structure Field where
  name : String
  exported : Bool
  value : FieldValue

/-- A struct: each field has its own name. -/
structure Obj where
  fields : List Field
  nodup : (fields.map Field.name).Nodup

/-- How a function fails. -/
inductive Failure
  | error (e : Err)
  | panicked

/-! ### RedisHSetObj -/

/-- The text of a field, if it is written.  `Interface` panics on a field that is not
exported, `Bool` does not. -/
def Field.text (f : Field) : Except Failure (Option String) :=
  let written (t : BasicType) (v : t.Val) : Except Failure (Option String) :=
    if f.exported ∨ t = .bool then .ok (some (t.print v)) else .error .panicked
  match f.value with
  | .deletedAt _ => .ok none
  | .pointer _ none => .ok (some "")
  | .pointer t (some v) => written t v
  | .basic t v => written t v

/-- The map of the fields. -/
def objData : List Field → Except Failure (List (String × String))
  | [] => .ok []
  | f :: fs =>
    match f.text with
    | .error e => .error e
    | .ok none => objData fs
    | .ok (some text) => (objData fs).map ((f.name, text) :: ·)

/-- `HSET` without a field is an error of the server. -/
def Obj.redisHSetObj (key : String) (obj : Obj) (expiration : Int) :
    HashM (Except Failure Unit) :=
  match objData obj.fields with
  | .error e => return .error e
  | .ok [] => return .error (.error (.new ("failed to execute transaction: "
      ++ "ERR wrong number of arguments for 'hset' command")))
  | .ok data => do
    match ← Common.redisHSetObj key data expiration with
    | some e => return .error (.error e)
    | none => return .ok ()

/-! ### RedisHGetObj -/

/-- The value that a text is parsed to. -/
def BasicType.parse (name value : String) : (t : BasicType) → Except Err t.Val
  | string => .ok value
  | int | int64 =>
    match atoi value with
    | (n, none) => .ok (Int64.ofInt n)
    | (_, some e) =>
      .error (.new ("failed to parse int field " ++ name ++ ": " ++ parseIntError value e))
  | bool =>
    match parseBool value with
    | some b => .ok b
    | none => .error (.new ("failed to parse bool field " ++ name ++ ": "
        ++ "strconv.ParseBool: parsing " ++ value.quote ++ ": invalid syntax"))

section

-- `time.Parse` with the layout of RFC 3339
variable (parseTime : String → Except Err Int)

/-- A field is set to what its text is parsed to. -/
def Field.assign (f : Field) (t : BasicType) (value : String) : Except Failure t.Val :=
  match t.parse f.name value with
  | .error e => .error (.error e)
  | .ok v => if f.exported then .ok v else .error .panicked

/-- The field after its text was read into it. -/
def Field.load (f : Field) (value : String) : Except Failure Field :=
  match f.value with
  | .basic t _ => (f.assign t value).map fun v => { f with value := .basic t v }
  | .pointer t target =>
    if value = "" then .ok f
    else if target.isNone ∧ ¬ f.exported then .error .panicked
    else (f.assign t value).map fun v => { f with value := .pointer t (some v) }
  | .deletedAt _ =>
    if value = "" then .ok f
    else
      match parseTime value with
      | .error e =>
        .error (.error (.new ("failed to parse DeletedAt field " ++ f.name ++ ": " ++ e.error)))
      | .ok time =>
        if f.exported then .ok { f with value := .deletedAt (some time) } else .error .panicked

/-- A field that the hash does not have stays as it is. -/
def Field.read (result : Fields) (f : Field) : Except Failure Field :=
  match result f.name with
  | none => .ok f
  | some value => f.load parseTime value

/-- The fields after the hash was read into them. -/
def loadFields (result : Fields) : List Field → Except Failure (List Field)
  | [] => .ok []
  | f :: fs =>
    match f.read parseTime result with
    | .error e => .error e
    | .ok f' => (loadFields result fs).map (f' :: ·)

def Obj.redisHGetObj (key : String) (obj : Obj) : HashM (Except Failure (List Field)) := do
  let load (result : Fields) : Except Err (Except Failure (List Field)) :=
    .ok (loadFields parseTime result obj.fields)
  match ← Common.redisHGetObj key load with
  | .error e => return .error (.error e)
  | .ok fields => return fields

end

end AuthGateway.Common
