import Mathlib

namespace Jitsu.Warehouse

inductive DataType where
  | unknown | bool | int64 | float64 | string | timestamp | json
  deriving DecidableEq, Repr

def DataType.iota : DataType → ℕ
  | .unknown => 0
  | .bool => 1
  | .int64 => 2
  | .float64 => 3
  | .string => 4
  | .timestamp => 5
  | .json => 6

inductive IntKind where
  | int | int8 | int16 | int32 | int64 | uint | uint8 | uint16 | uint32 | uint64
  deriving DecidableEq, Repr

def IntKind.signed : IntKind → Bool
  | .int | .int8 | .int16 | .int32 | .int64 => true
  | .uint | .uint8 | .uint16 | .uint32 | .uint64 => false

inductive FloatKind where
  | float32 | float64
  deriving DecidableEq, Repr

inductive Value (F T : Type) where
  | null
  | bool (b : Bool)
  | int (kind : IntKind) (i : ℤ)
  | float (kind : FloatKind) (f : F)
  | string (s : String)
  | time (t : T)
  | object (fields : List (String × Value F T))
  | array (items : List (Value F T))
  | collection (items : List (Value F T))
  | unsupported (kind : String)

variable {F T : Type}

def Value.isNull : Value F T → Bool
  | .null => true
  | _ => false

inductive ConvertError where
  | unknownDataType
  | noRule (source target : DataType)
  | unknownValueType (function : String)
  | unconvertible (function : String)
  deriving DecidableEq, Repr

structure Codec (F T : Type) where
  formatFloat : F → String
  parseFloat : String → Option F
  atoi : String → Option ℤ
  ofInt : FloatKind → ℤ → F
  toInt : F → ℤ
  toFloat64 : FloatKind → F → F
  formatTime : T → String
  reformatTime : String → Option T
  sprint : Value F T → String
  marshal : Value F T → Option String
  marshal_object : ∀ fields : List (String × Value F T),
    (∀ f ∈ fields, (marshal f.2).isSome) → (marshal (.object fields)).isSome

def typeFromValue : Value F T → Except ConvertError DataType
  | .string _ => .ok .string
  | .time _ => .ok .timestamp
  | .float _ _ => .ok .float64
  | .bool _ => .ok .bool
  | .int _ _ => .ok .int64
  | .object _ | .array _ | .collection _ => .ok .json
  | .null | .unsupported _ => .error .unknownDataType

def parseBool (s : String) : Option Bool :=
  if s ∈ ["1","t","T","true","TRUE","True"] then some true
  else if s ∈ ["0","f","F","false","FALSE","False"] then some false
  else none

namespace Codec

variable (c : Codec F T)

def numberToString : Value F T → Except ConvertError (Value F T)
  | .int kind i => if kind.signed then .ok (.string (toString i))
    else .error (.unknownValueType "numberToString")
  | .float kind f => .ok (.string (c.formatFloat (c.toFloat64 kind f)))
  | .string s => .ok (.string s)
  | _ => .error (.unknownValueType "numberToString")

def anyToBoolean : Value F T → Except ConvertError (Value F T)
  | .string s => match parseBool s with
    | some b => .ok (.bool b)
    | none => .error (.unconvertible "anyToBoolean")
  | .bool b => .ok (.bool b)
  | v => if c.sprint v ≠ "1" ∧ c.sprint v ≠ "0" then .error (.unconvertible "anyToBoolean")
    else .ok (.bool (c.sprint v == "1"))

def timestampToString : Value F T → Except ConvertError (Value F T)
  | .time t => .ok (.string (c.formatTime t))
  | .string s => .ok (.string s)
  | _ => .error (.unknownValueType "timestampToString")

def marshalToString (v : Value F T) : Except ConvertError (Value F T) :=
  match c.marshal v with
  | some s => .ok (.string s)
  | none => .error (.unconvertible "marshal")

def jsonToString : Value F T → Except ConvertError (Value F T)
  | .object fields => c.marshalToString (.object fields)
  | .array items => c.marshalToString (.array items)
  | .string s => .ok (.string s)
  | _ => .error (.unknownValueType "jsonToString")

def stringToJson : Value F T → Except ConvertError (Value F T)
  | .string s => .ok (.string s)
  | _ => .error (.unknownValueType "stringToJson")

def anyToString : Value F T → Except ConvertError (Value F T)
  | .object fields => c.marshalToString (.object fields)
  | .array items => c.marshalToString (.array items)
  | v => .ok (.string (c.sprint v))

def numberToFloat : Value F T → Except ConvertError (Value F T)
  | .int kind i => if kind.signed then .ok (.float .float64 (c.ofInt .float64 i))
    else .error (.unknownValueType "numberToFloat")
  | .float kind f => .ok (.float .float64 (c.toFloat64 kind f))
  | _ => .error (.unknownValueType "numberToFloat")

def boolToString : Value F T → Except ConvertError (Value F T)
  | .bool b => .ok (.string (toString b))
  | _ => .error (.unknownValueType "boolToString")

def boolToNumber : Value F T → Except ConvertError (Value F T)
  | .bool b => .ok (.int .int64 (if b then 1 else 0))
  | _ => .error (.unknownValueType "boolToNumber")

def floatToNumber [DecidableEq F] : Value F T → Except ConvertError (Value F T)
  | .float kind f => if f = c.ofInt kind (c.toInt f) then .ok (.int .int64 (c.toInt f))
    else .error (.unconvertible "floatToNumber")
  | _ => .error (.unknownValueType "floatToNumber")

def boolToFloat : Value F T → Except ConvertError (Value F T)
  | .bool b => .ok (.float .float64 (c.ofInt .float64 (if b then 1 else 0)))
  | _ => .error (.unknownValueType "boolToFloat")

def stringToInt : Value F T → Except ConvertError (Value F T)
  | .string s => match c.atoi s with
    | some i => .ok (.int .int64 i)
    | none => .error (.unconvertible "stringToInt")
  | _ => .error (.unknownValueType "stringToInt")

def stringToFloat : Value F T → Except ConvertError (Value F T)
  | .string s => match c.parseFloat s with
    | some f => .ok (.float .float64 f)
    | none => .error (.unconvertible "stringToFloat")
  | _ => .error (.unknownValueType "stringToFloat")

def stringToTimestamp : Value F T → Except ConvertError (Value F T)
  | .string s => match c.reformatTime s with
    | some t => .ok (.time t)
    | none => .error (.unconvertible "stringToTimestamp")
  | _ => .error (.unconvertible "stringToTimestamp")

variable [DecidableEq F]

def convertRules : DataType → DataType → Option (Value F T → Except ConvertError (Value F T))
  | .bool, .string => some boolToString
  | .int64, .string => some c.numberToString
  | .float64, .string => some c.numberToString
  | .timestamp, .string => some c.timestampToString
  | .json, .string => some c.jsonToString
  | .unknown, .string => some c.anyToString
  | .string, .json => some stringToJson
  | .bool, .int64 => some boolToNumber
  | .float64, .int64 => some c.floatToNumber
  | .bool, .float64 => some c.boolToFloat
  | .int64, .float64 => some c.numberToFloat
  | .string, .bool => some c.anyToBoolean
  | .int64, .bool => some c.anyToBoolean
  | .float64, .bool => some c.anyToBoolean
  | .string, .timestamp => some c.stringToTimestamp
  | .string, .int64 => some c.stringToInt
  | .string, .float64 => some c.stringToFloat
  | _, _ => none

def stored : DataType → DataType
  | .unknown => .string
  | t => t

def isConvertible (source target : DataType) : Bool :=
  if source = target then true else (c.convertRules source (stored target)).isSome

def convert (toType : DataType) (v : Value F T) : Except ConvertError (Value F T × Bool) := do
  let currentType ← typeFromValue v
  if currentType = toType then return (v,false)
  match c.convertRules currentType (stored toType) with
  | none => throw (.noRule currentType (stored toType))
  | some f =>
    let r ← f v
    return (r,true)

end Codec

inductive TypeNode where
  | nil
  | node (t : DataType) (left right : TypeNode)

def typecastTree : TypeNode :=
  .node .string (.node .float64 (.node .int64 (.node .bool .nil .nil) .nil) .nil) (.node .timestamp .nil .nil)

def TypeNode.split (t1 t2 : DataType) : TypeNode → DataType
  | .nil => .unknown
  | .node t left right =>
    if t.iota < t1.iota ∧ t.iota < t2.iota then right.split t1 t2
    else if t1.iota < t.iota ∧ t2.iota < t.iota then left.split t1 t2
    else t

def lowestCommonAncestor (root : TypeNode) (t1 t2 : DataType) : DataType :=
  if t1 = .unknown ∨ t2 = .unknown then .unknown
  else if t1 = .string ∨ t2 = .string then .string
  else root.split t1 t2

def getCommonAncestorType (t1 t2 : DataType) : DataType := lowestCommonAncestor typecastTree t1 t2

namespace Codec

variable (c : Codec F T) [DecidableEq F]

def writable : Value F T → Bool
  | .bool _ | .float _ _ | .time _ => true
  | .int kind _ => kind.signed
  | .object fields => (c.marshal (.object fields)).isSome
  | .array items => (c.marshal (.array items)).isSome
  | .null | .string _ | .collection _ | .unsupported _ => false

variable {v : Value F T}

theorem convert_unconvertible {t : DataType}
    (h : ∀ s, typeFromValue v = .ok s → c.isConvertible s t = false) : ∃ e, c.convert t v = .error e := by
  unfold convert
  cases hv : typeFromValue v with
  | error e => exact ⟨e,rfl⟩
  | ok s =>
    have hs := h s hv
    unfold isConvertible at hs
    split at hs
    · cases hs
    · next hne =>
      have hnone : c.convertRules s (stored t) = none := by simpa using hs
      refine ⟨.noRule s (stored t),?_⟩
      simp [hne,hnone,bind,Except.bind,throw,throwThe,MonadExceptOf.throw]

theorem isConvertible_unknown {t : DataType} (h : t ≠ .string) : c.isConvertible t .unknown = true := by
  cases t <;> first | rfl | exact absurd rfl h

theorem convert_marshal (hv : typeFromValue v = .ok .json)
    (hj : c.jsonToString v = c.marshalToString v) (h : (c.marshal v).isSome) :
    ∃ r, c.convert .unknown v = .ok r := by
  obtain ⟨s,hs⟩ := Option.isSome_iff_exists.mp h
  refine ⟨(.string s,true),?_⟩
  simp [convert,hv,stored,convertRules,hj,marshalToString,hs,bind,Except.bind,pure,Except.pure]

theorem convert_writable (h : c.writable v = true) : ∃ r, c.convert .unknown v = .ok r := by
  cases v with
  | null | string | collection | unsupported => cases h
  | bool b => exact ⟨_,rfl⟩
  | float kind f => exact ⟨_,rfl⟩
  | time t => exact ⟨_,rfl⟩
  | int kind i =>
    have hk : kind.signed = true := h
    refine ⟨(.string (toString i),true),?_⟩
    simp [convert,typeFromValue,stored,convertRules,numberToString,hk,bind,Except.bind,pure,Except.pure]
  | object fields => exact c.convert_marshal (by rfl) (by rfl) h
  | array items => exact c.convert_marshal (by rfl) (by rfl) h

end Codec

end Jitsu.Warehouse
