import WritePlan.Error
import WritePlan.Json.Reader

namespace WritePlan

structure BatchPolicy where
  enabled : Bool
  /-- The most members that a batch may have; none sets no limit. -/
  maxBatchSize : Option Nat
deriving DecidableEq

namespace BatchPolicy

def standard : BatchPolicy := ⟨true, none⟩

def disabled : BatchPolicy := ⟨false, none⟩

def validate (policy : BatchPolicy) : Except Error Unit :=
  if policy.maxBatchSize = some 0 then .error (.invalidConfig .emptyBatches) else .ok ()

/-- The most members that an action of the stream may stand for, at least one; none sets no
limit. -/
def chunkSize (policy : BatchPolicy) : Option Nat :=
  if policy.enabled then policy.maxBatchSize.map (max · 1) else some 1

def enabledOfJson? : Json → Option Bool
  | .boolean b => some b
  | _ => none

/-- Null, or a natural number of 64 bits. -/
def maxBatchSizeOfJson? : Json → Option (Option Nat)
  | .null => some none
  | .number numeral => do
    let n ← numeral.toInt?
    if 0 ≤ n ∧ n.toNat < UInt64.size then some (some n.toNat) else none
  | _ => none

/-- A policy from its two parts; a missing part is that of the standard policy. -/
def ofParts? (enabled maxBatchSize : Option Json) : Option BatchPolicy := do
  let enabled ← match enabled with
    | some json => enabledOfJson? json
    | none => some standard.enabled
  let maxBatchSize ← match maxBatchSize with
    | some json => maxBatchSizeOfJson? json
    | none => some standard.maxBatchSize
  return ⟨enabled, maxBatchSize⟩

/-- Reads an object, in which members of other names are passed over, or an array of at
most the two parts. -/
def ofJson? (json : Json) : Option BatchPolicy :=
  match json with
  | .array [] => ofParts? none none
  | .array [enabled] => ofParts? (some enabled) none
  | .array [enabled, maxBatchSize] => ofParts? (some enabled) (some maxBatchSize)
  | _ => do
    let members ← json.members?
    ofParts? (← Json.uniqueMember? members "enabled")
      (← Json.uniqueMember? members "max_batch_size")

def parse (text : String) : Except Error BatchPolicy := do
  match (Json.parse? text).bind ofJson? with
  | none => throw .configSyntax
  | some policy =>
    policy.validate
    return policy

end BatchPolicy

end WritePlan
