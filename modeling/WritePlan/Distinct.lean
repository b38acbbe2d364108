import WritePlan.Path
import WritePlan.Value
import Std.Data.HashSet

namespace WritePlan

/-- The bits of a number as a key: one pattern stands for all NaN values. -/
def Binary64.keyBits (x : Binary64) : UInt64 := if x.isNaN then 0x7FF8000000000000 else x.bits

/-- So many bytes of a number, the lowest first. -/
def littleEndian : Nat → Nat → List UInt8
  | 0, _ => []
  | count + 1, n => n.toUInt8 :: littleEndian count (n / 256)

def pairedBytes : List (Fin 16) → List UInt8
  | high :: low :: rest => (16 * high.val + low.val).toUInt8 :: pairedBytes rest
  | _ => []

/-- The bytes that the hash of a value is made of. The first tells the type; a text ends with a byte
that no text holds. -/
def Value.hashBytes : Value → List UInt8
  | .null => [0]
  | .integer n => 1 :: littleEndian 8 n.toUInt64.toNat
  | .float x => 2 :: littleEndian 8 x.keyBits.toNat
  | .text s => 3 :: (s.toUTF8.data.toList ++ [0xFF])
  | .boolean b => [4, b.toUInt8]
  | .uuid id => 5 :: pairedBytes id.digits
  | .timestamp t =>
    6 :: (littleEndian 8 (Int64.ofInt t.seconds).toUInt64.toNat ++ littleEndian 4 t.nanos)

instance : Hashable Value := ⟨fun value => hash value.hashBytes⟩

instance : Hashable Path := ⟨fun path => hash path.segments⟩

/-- Puts items into a hash set one by one and keeps those that were new to it, in order. -/
def distinctFrom [BEq α] [Hashable α] (seen : Std.HashSet α) : List α → List α
  | [] => []
  | item :: rest =>
    if seen.contains item then distinctFrom seen rest
    else item :: distinctFrom (seen.insert item) rest

def distinct [BEq α] [Hashable α] (items : List α) : List α := distinctFrom ∅ items

end WritePlan
