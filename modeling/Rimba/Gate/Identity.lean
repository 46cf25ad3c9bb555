import Rimba.Foundation.HexText
import Rimba.Gate.ArpFrame

/-! # The gate's mesh identity

`app_main` derives the mesh address of a board from the one in its efuse, and
`mesh_net_task` its static IP from the mesh address. As texts both are read back
octet by octet (`Rimba.Gate.splitOn_macText`).
-/

namespace Rimba.Gate

open Foundation

/-- `mac[0] = octet` -/
def setFirst (mac : Mac) (octet : UInt8) : Mac := mac.set 0 octet (Nat.zero_lt_succ 5)

/-- `g_mesh_mac` of `app_main`, given what `esp_read_mac` returned. -/
def meshMac (efuse : Mac) : Mac := setFirst efuse ((byteAt efuse.toList 0 ||| 0x02) &&& 0xFE)

/-- `host` of `mesh_net_task` -/
def meshHost (mac : Mac) : ℕ := 100 + (byteAt mac.toList 5 &&& 0x3f).toNat

/-- A host of the flat subnet. -/
def subnetText (host : ℕ) : List Char := "10.9.9.".toList ++ Nat.toDigits 10 host

/-- `ipbuf` of `mesh_net_task` -/
def meshIp (mac : Mac) : List Char := subnetText (meshHost mac)

/-- `MACSTR`: the octets in lower-case hex, with colons. -/
def macText (mac : Mac) : List Char := [':'].intercalate (mac.toList.map octetText)

theorem toList_setFirst (mac : Mac) (octet : UInt8) :
    (setFirst mac octet).toList = mac.toList.set 0 octet :=
  Vector.toList_set _

theorem byteAt_setFirst (mac : Mac) (octet : UInt8) :
    byteAt (setFirst mac octet).toList 0 = octet := by
  have some : 0 < mac.toList.length := by
    rw [Vector.length_toList]
    exact Nat.zero_lt_succ 5
  rw [toList_setFirst, byteAt, List.getD_eq_getElem?_getD, List.getElem?_set_self some,
    Option.getD_some]

/-- The later octets stay. -/
theorem byteAt_setFirst_later {i : ℕ} (later : 0 < i) (mac : Mac) (octet : UInt8) :
    byteAt (setFirst mac octet).toList i = byteAt mac.toList i := by
  rw [toList_setFirst, byteAt, byteAt, List.getD_eq_getElem?_getD, List.getD_eq_getElem?_getD,
    List.getElem?_set_ne later.ne]

/-- An octet of an address that is mapped octet by octet. -/
theorem getElem?_octets {Value : Type*} (f : UInt8 → Value) (mac : Mac) {i : ℕ} (inside : i < 6) :
    (mac.toList.map f)[i]? = some (f (byteAt mac.toList i)) := by
  have within : i < mac.toList.length := by
    rwa [Vector.length_toList]
  rw [List.getElem?_map, byteAt, List.getD_eq_getElem?_getD, List.getElem?_eq_getElem within]
  rfl

/-- The hosts of mesh nodes are 100 to 163. -/
theorem meshHost_range (mac : Mac) : 100 ≤ meshHost mac ∧ meshHost mac ≤ 163 := by
  have masked : (byteAt mac.toList 5 &&& 0x3f).toNat ≤ 0x3f := Nat.and_le_right
  rw [meshHost]
  omega

theorem splitOn_macText (mac : Mac) :
    (macText mac).splitOn ':' = mac.toList.map octetText :=
  splitOn_octets fun nothing => by
    have length := congrArg List.length nothing
    rw [Vector.length_toList] at length
    cases length

theorem macText_injective : Function.Injective macText := by
  intro mac other same
  have pieces := congrArg (List.splitOn ':') same
  rw [splitOn_macText, splitOn_macText] at pieces
  exact Vector.toList_inj.mp (List.map_injective_iff.mpr octetText_injective pieces)

end Rimba.Gate
