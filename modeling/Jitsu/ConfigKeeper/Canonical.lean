import Mathlib

namespace Jitsu.ConfigKeeper

abbrev Bytes := List UInt8

inductive Json where
  | null
  | bool (value : Bool)
  | num (literal : Bytes)
  | str (value : Bytes)
  | arr (items : List Json)
  | obj (fields : List (Bytes × Json))

def byte (c : Char) : UInt8 := c.toNat.toUInt8

def fnvOffset : UInt64 := 14695981039346656037

def fnvPrime : UInt64 := 1099511628211

def hashBytes (data : Bytes) : UInt64 :=
  data.foldl (fun h b => (h ^^^ b.toUInt64) * fnvPrime) fnvOffset

def lengthPrefix (n : ℕ) : Bytes := (List.range 8).map fun i => (n / 256 ^ i).toUInt8

def canonicalString (s : Bytes) : Bytes := lengthPrefix s.length ++ s

def put {V : Type} (m : List (Bytes × V)) (key : Bytes) (value : V) : List (Bytes × V) :=
  m.filter (·.1 ≠ key) ++ [(key,value)]

def decodedMap {V : Type} (fields : List (Bytes × V)) : List (Bytes × V) :=
  fields.foldl (fun m f => put m f.1 f.2) []

def precedes : Bytes → Bytes → Bool
  | [], _ => true
  | _ :: _, [] => false
  | a :: as, b :: bs => a < b || (a = b && precedes as bs)

def sortFields {V : Type} (fields : List (Bytes × V)) : List (Bytes × V) :=
  fields.insertionSort fun a b => precedes a.1 b.1 = true

def canonicalField (f : Bytes × Bytes) : Bytes := byte ',' :: canonicalString f.1 ++ byte ':' :: f.2

mutual

def canonical : Json → Bytes
  | .null => [byte 'N']
  | .bool value => [if value then byte 'T' else byte 'F']
  | .num literal => byte '#' :: canonicalString literal
  | .str value => byte 's' :: canonicalString value
  | .arr items => byte '[' :: canonicalItems items
  | .obj fields =>
    byte '{' :: (sortFields (decodedMap (canonicalFields fields))).flatMap canonicalField ++ [byte '}']

def canonicalItems : List Json → Bytes
  | [] => [byte ']']
  | item :: items => canonical item ++ byte ',' :: canonicalItems items

def canonicalFields : List (Bytes × Json) → List (Bytes × Bytes)
  | [] => []
  | (key,value) :: fields => (key,canonical value) :: canonicalFields fields

end

def unmarshalRows : Json → Option (List Json)
  | .arr rows => some rows
  | .null => some []
  | _ => none

def rowObject : Json → Option (List (Bytes × Json))
  | .obj fields => some (decodedMap fields)
  | .null => some []
  | _ => none

def idKey : Bytes := [byte 'i',byte 'd']

def rowId (row : Json) : Option Bytes :=
  match (rowObject row).bind (List.lookup idKey) with
  | some (.str id) => if id = [] then none else some id
  | _ => none

abbrev RowMap := List (Bytes × UInt64)

structure RowHashes where
  hashes : RowMap
  noId : ℕ
  deriving DecidableEq, Repr

def hashRow (r : RowHashes) (row : Json) : RowHashes :=
  match rowId row with
  | some id => { r with hashes := put r.hashes id (hashBytes (canonical row)) }
  | none => { r with noId := r.noId + 1 }

def hashRows (payload : Json) : Option RowHashes :=
  (unmarshalRows payload).map fun rows => rows.foldl hashRow ⟨[],0⟩

def commonRows (old updated : RowMap) : RowMap := updated.filter fun row => (old.lookup row.1).isSome

def changedRows (old updated : RowMap) : RowMap :=
  (commonRows old updated).filter fun row => old.lookup row.1 ≠ some row.2

def diffRows (old updated : RowMap) : ℕ × ℕ :=
  ((changedRows old updated).length,(commonRows old updated).length)

end Jitsu.ConfigKeeper
