import AuthGateway.Lib.GoErrors

/-!
# types, setting, operation_setting: settings read from JSON

`types/rw_map.go`, `setting/user_usable_group.go`, `setting/rate_limit.go` and
`setting/operation_setting/payment_setting_old.go`.  Each of these settings is made empty before
the text is decoded into it.
-/

namespace AuthGateway.Setting

/-! ### Maps with a lock -/

/-- `RWMap[K, V]`; a map that was never made is nil. -/
structure RWMap (k : KeyType) (V : Type) where
  data : Option (SortedMap k.Key V) := none

section RWMap

variable {k : KeyType} {V : Type}

def newRWMap : RWMap k V := { data := some SortedMap.empty }

/-- `UnmarshalJSON`, with the bytes as text. -/
def RWMap.unmarshalJSON (d : Decoder V) (m : RWMap k V) (b : String) :
    RWMap k V × Option UnmarshalError :=
  let m := { m with data := some SortedMap.empty }
  let (data, err) := (d.map k).unmarshal b m.data
  ({ m with data := data }, err)

def loadFromJsonString (d : Decoder V) (m : RWMap k V) (jsonStr : String) :
    RWMap k V × Option UnmarshalError :=
  let m := { m with data := some SortedMap.empty }
  let (data, err) := (d.map k).unmarshal jsonStr m.data
  ({ m with data := data }, err)

end RWMap

/-! ### Settings in variables -/

section Variables

variable (lib : GoLibrary)

/-- A `map[string]string`. -/
abbrev Groups : Type := Option (SortedMap KeyType.string.Key String)

/-- `userUsableGroups` at the start. -/
def userUsableGroups : Groups :=
  some ((SortedMap.empty.insert (show KeyType.string.Key from "default") "默认分组").insert
    (show KeyType.string.Key from "vip") "vip分组")

def updateUserUsableGroupsByJSONString (_ : Groups) (jsonStr : String) :
    Groups × Option UnmarshalError :=
  (((GoType.string).decoder lib).map .string).unmarshal jsonStr (some SortedMap.empty)

/-- A `map[string][2]int`, the total and the successful requests of each group. -/
abbrev GroupLimits : Type := Option (SortedMap KeyType.string.Key (IntOf .w64 × IntOf .w64))

def updateModelRequestRateLimitGroupByJSONString (_ : GroupLimits) (jsonStr : String) :
    GroupLimits × Option UnmarshalError :=
  (((GoType.int .w64).decoder lib).pair.map .string).unmarshal jsonStr (some SortedMap.empty)

/-- A `[]map[string]string`. -/
abbrev payMethodsType : GoType := .slice (.map .string .string)

def updatePayMethodsByJsonString (_ : payMethodsType.Val) (jsonString : String) :
    payMethodsType.Val × Option UnmarshalError :=
  (payMethodsType.decoder lib).unmarshal jsonString
    (some (Cells.mk (V := (GoType.map .string .string).Val) [] []))

variable {lib}

theorem groups_error (groups : Groups) (jsonStr : String) :
    (updateUserUsableGroupsByJSONString lib groups jsonStr).2 =
      ((GoType.string.decoder lib).map .string).error? jsonStr := rfl

theorem limits_error (limits : GroupLimits) (jsonStr : String) :
    (updateModelRequestRateLimitGroupByJSONString lib limits jsonStr).2 =
      (((GoType.int .w64).decoder lib).pair.map .string).error? jsonStr := rfl

theorem payMethods_error (payMethods : payMethodsType.Val) (jsonString : String) :
    (updatePayMethodsByJsonString lib payMethods jsonString).2 =
      (payMethodsType.decoder lib).error? jsonString := rfl

end Variables

end AuthGateway.Setting
