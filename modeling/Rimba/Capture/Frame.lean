import Mathlib.Algebra.Group.Nat.Defs
import Mathlib.Data.Rat.Defs

/-! # What the scorers read off a captured frame

The capture tools read radiotap frames from a monitor interface, keep the time
of each one that concerns them and score the result. Both scorers take the same
beacon parse; the group-key scorer also reads the CCMP header of a protected,
group-addressed frame.
-/

namespace Rimba.Capture

/-- A captured frame, radiotap header included. -/
abbrev Octets := List UInt8

/-- The outcome of a scorer. -/
inductive Verdict where
  | pass
  | fail
  | inconclusive
  deriving DecidableEq, Repr

/-- The exit status a scorer reports its verdict with. -/
def Verdict.exitCode : Verdict → ℕ
  | .pass => 0
  | .fail => 1
  | .inconclusive => 2

/-- `"%02x" % x` -/
def hexOctet (octet : UInt8) : String :=
  String.ofList [Nat.digitChar (octet.toNat / 16), Nat.digitChar (octet.toNat % 16)]

/-- The octets of an address as lower-case hex with colons. -/
def mac (octets : Octets) : String := ":".intercalate (octets.map hexOctet)

/-- `d[lo:hi]` -/
def slice (octets : Octets) (lo hi : ℕ) : Octets := (octets.drop lo).take (hi - lo)

/-- A slice at the offsets of a part is that part. -/
theorem slice_append {front octets behind : Octets} {lo hi : ℕ} (start : front.length = lo)
    (stop : lo + octets.length = hi) : slice (front ++ (octets ++ behind)) lo hi = octets := by
  subst start stop
  rw [slice, List.drop_left, Nat.add_sub_cancel_left, List.take_left]

/-- The frame behind its radiotap header; `none` when the header is cut. -/
def pastRadiotap (d : Octets) : Option Octets :=
  if d.length < 4 then none
  else some (d.drop ((d.getD 2 0).toNat + (d.getD 3 0).toNat * 256))

/-- The type and subtype bits of the first frame-control octet. -/
def frameType (f : Octets) : UInt8 × UInt8 :=
  ((f.getD 0 0 >>> 2) &&& 3, (f.getD 0 0 >>> 4) &&& 0xf)

/-- The source address of an S1G or legacy beacon. -/
def s1gBeaconSa (d : Octets) : Option String := do
  let f ← pastRadiotap d
  if f.length < 16 then none
  else if frameType f = (3, 1) then some (mac (slice f 4 10))
  else if frameType f = (0, 8) then some (mac (slice f 10 16))
  else none

/-- What `group_ccmp_pn` reads: the packet number, the key id and the length. -/
structure GroupFrame where
  pn : ℕ
  keyId : ℕ
  length : ℕ
  deriving DecidableEq, Repr

/-- The packet number, key id and length of a protected, group-addressed data
frame sent by the access point. -/
def groupCcmpPn (d : Octets) (ap : String) : Option GroupFrame := do
  let f ← pastRadiotap d
  if f.length < 34 then none
  else if (frameType f).1 ≠ 2 then none
  else if f.getD 1 0 &&& 0x40 = 0 then none
  else if f.getD 4 0 &&& 1 = 0 then none
  else if mac (slice f 10 16) ≠ ap then none
  else
    let hdr := 24 + if (frameType f).2 &&& 0x8 ≠ 0 then 2 else 0
    let c := slice f hdr (hdr + 8)
    if c.length < 8 || c.getD 3 0 &&& 0x20 = 0 then none
    else
      some
        { pn := (c.getD 0 0).toNat + (c.getD 1 0).toNat * 2 ^ 8 + (c.getD 4 0).toNat * 2 ^ 16 +
            (c.getD 5 0).toNat * 2 ^ 24 + (c.getD 6 0).toNat * 2 ^ 32 + (c.getD 7 0).toNat * 2 ^ 40
          keyId := (c.getD 3 0 >>> 6).toNat
          length := f.length }

/-- One pass of a capture loop: the clock, and the frame if one arrived. -/
structure Reception where
  now : ℚ
  frame : Option Octets

end Rimba.Capture
