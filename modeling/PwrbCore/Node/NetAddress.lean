/-
  Node.NetAddress — NETWORK ADDRESSES (`CNetAddr`, `CService` of `netbase.h` and `netbase.cpp`): the bytes of an
  address, and which addresses are routable.
-/
import Mathlib.Data.List.Defs

namespace PwrbCore

/-- `CNetAddr`: sixteen bytes in network order. -/
structure CNetAddr where
  ip : List UInt8
  deriving DecidableEq, Repr

structure CService where
  ip : List UInt8
  port : Nat
  deriving DecidableEq, Repr

def CService.toCNetAddr (addr : CService) : CNetAddr := ⟨addr.ip⟩

namespace CNetAddr

def pchIPv4 : List UInt8 := [0, 0, 0, 0, 0, 0, 0, 0, 0, 0, 0xff, 0xff]

def pchOnionCat : List UInt8 := [0xFD, 0x87, 0xD8, 0x7E, 0xEB, 0x43]

section

variable (a : CNetAddr)

/-- `memcmp(ip, bytes, sizeof(bytes)) == 0`. -/
def startsWith (bytes : List UInt8) : Bool := a.ip.take bytes.length == bytes

def getByte (n : Nat) : UInt8 := a.ip.getD (15 - n) 0

def isIPv4 : Bool := a.startsWith pchIPv4

def isTor : Bool := a.startsWith pchOnionCat

def isRFC1918 : Bool :=
  a.isIPv4 && (a.getByte 3 == 10 || (a.getByte 3 == 192 && a.getByte 2 == 168)
    || (a.getByte 3 == 172 && (decide (16 ≤ a.getByte 2) && decide (a.getByte 2 ≤ 31))))

def isRFC2544 : Bool := a.isIPv4 && a.getByte 3 == 198 && (a.getByte 2 == 18 || a.getByte 2 == 19)

def isRFC3927 : Bool := a.isIPv4 && (a.getByte 3 == 169 && a.getByte 2 == 254)

def isRFC6598 : Bool :=
  a.isIPv4 && a.getByte 3 == 100 && decide (64 ≤ a.getByte 2) && decide (a.getByte 2 ≤ 127)

def isRFC5737 : Bool :=
  a.isIPv4 && ((a.getByte 3 == 192 && a.getByte 2 == 0 && a.getByte 1 == 2)
    || (a.getByte 3 == 198 && a.getByte 2 == 51 && a.getByte 1 == 100)
    || (a.getByte 3 == 203 && a.getByte 2 == 0 && a.getByte 1 == 113))

def isRFC3849 : Bool :=
  a.getByte 15 == 0x20 && a.getByte 14 == 0x01 && a.getByte 13 == 0x0D && a.getByte 12 == 0xB8

def isRFC4862 : Bool := a.startsWith [0xFE, 0x80, 0, 0, 0, 0, 0, 0]

def isRFC4193 : Bool := a.getByte 15 &&& 0xFE == 0xFC

def isRFC4843 : Bool :=
  a.getByte 15 == 0x20 && a.getByte 14 == 0x01 && a.getByte 13 == 0x00 && a.getByte 12 &&& 0xF0 == 0x10

def isLocal : Bool :=
  (a.isIPv4 && (a.getByte 3 == 127 || a.getByte 3 == 0)) ||
    a.startsWith [0, 0, 0, 0, 0, 0, 0, 0, 0, 0, 0, 0, 0, 0, 0, 1]

def isValid : Bool :=
  if a.startsWith (pchIPv4.drop 3) then false
  else if a.startsWith (List.replicate 16 0) then false
  else if a.isRFC3849 then false
  else if a.isIPv4 && (a.ip.drop 12 == [0xff, 0xff, 0xff, 0xff] || a.ip.drop 12 == [0, 0, 0, 0]) then false
  else true

def isRoutable : Bool :=
  a.isValid && !(a.isRFC1918 || a.isRFC2544 || a.isRFC3927 || a.isRFC4862 || a.isRFC6598 || a.isRFC5737
    || (a.isRFC4193 && !a.isTor) || a.isRFC4843 || a.isLocal)

end

end CNetAddr

end PwrbCore
