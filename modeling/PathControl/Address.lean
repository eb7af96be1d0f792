/-
  PathControl/Address.lean
  ========================
  **Addresses that hosts answer to.**

  A host is found by its IPv4 address or by its hardware address. Both are
  numbers written in groups: four decimal octets with points, six two-digit
  hexadecimal octets with colons. The order of addresses is the order of these
  numbers, which is also the order of the octets read from the left; every
  IPv4 address comes before every hardware address.
-/
import PathControl.Json
import PathControl.Numeral

namespace PathControl

/-! ### IPv4 -/

/-- An IPv4 address, most significant octet first. -/
structure Ipv4Address where
  value : UInt32
deriving DecidableEq, Inhabited

namespace Ipv4Address

def ofOctets (a b c d : UInt8) : Ipv4Address :=
  ⟨(a.toUInt32 <<< 24) ||| (b.toUInt32 <<< 16) ||| (c.toUInt32 <<< 8) ||| d.toUInt32⟩

def octets (ip : Ipv4Address) : List UInt8 :=
  [(ip.value >>> 24).toUInt8, (ip.value >>> 16).toUInt8, (ip.value >>> 8).toUInt8,
    ip.value.toUInt8]

/-- Four decimal octets with points between them. -/
def text (ip : Ipv4Address) : String :=
  ".".intercalate (ip.octets.map fun o => decimal o.toNat)

instance : ToString Ipv4Address := ⟨text⟩

instance : Ord Ipv4Address := ⟨fun a b => compare a.value b.value⟩

end Ipv4Address

/-! ### Hardware addresses -/

/-- A hardware address of 48 bits, most significant octet first. -/
structure MacAddress where
  value : BitVec 48
deriving DecidableEq, Inhabited

namespace MacAddress

/-- The address in the lower 48 bits of a word. -/
def ofWord (w : UInt64) : MacAddress := ⟨w.toBitVec.setWidth 48⟩

def ofOctets (a b c d e f : UInt8) : MacAddress :=
  ⟨a.toBitVec ++ b.toBitVec ++ c.toBitVec ++ d.toBitVec ++ e.toBitVec ++ f.toBitVec⟩

/-- The address that a JSON array of exactly six octets stands for. -/
def ofJson? : Json → Option MacAddress
  | .array [a, b, c, d, e, f] => do
    let octet (j : Json) : Option UInt8 := (j.below? 256).map UInt8.ofNat
    return ofOctets (← octet a) (← octet b) (← octet c) (← octet d) (← octet e) (← octet f)
  | _ => none

def octets (mac : MacAddress) : List UInt8 :=
  [40, 32, 24, 16, 8, 0].map fun shift => ⟨mac.value.extractLsb' shift 8⟩

/-- Six hexadecimal octets of two digits with colons between them. -/
def text (mac : MacAddress) : String :=
  ":".intercalate (mac.octets.map fun o => hexadecimalPadded 2 o.toNat)

instance : ToString MacAddress := ⟨text⟩

instance : Ord MacAddress := ⟨fun a b => compare a.value b.value⟩

end MacAddress

/-! ### Either kind -/

/-- An address by which the end of a flow is found. -/
inductive HostAddress where
  | ip (address : Ipv4Address)
  | mac (address : MacAddress)
deriving DecidableEq

namespace HostAddress

def text : HostAddress → String
  | ip a => a.text
  | mac a => a.text

instance : ToString HostAddress := ⟨text⟩

/-- IPv4 addresses first, then each kind by its number. -/
instance : Ord HostAddress where
  compare
    | ip a, ip b => compare a b
    | ip _, mac _ => .lt
    | mac _, ip _ => .gt
    | mac a, mac b => compare a b

end HostAddress

end PathControl
