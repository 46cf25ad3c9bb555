import Rimba.Gate.DatapathCalls

/-! # What becomes of a received packet

`gw_mesh_rx_cb` and `gw_ap_rx_cb` own the packet they are given, and so does
`gw_rx_deliver` behind them. Whatever the allocator, the driver and the network
stack answer, the packet is released once, and nothing a callback allocates is
left over (`Rimba.Gate.Owned`). What becomes of the frame is settled by whether it
is answered, by its header and length, and by what the other side takes
(`Rimba.Gate.packet_disposed`).
-/

namespace Rimba.Gate

open Foundation Foundation.Thread

/-- What a callback did with a frame besides answering it: what it offered the
mesh for one destination and for everyone, what it put on the AP vif, and how
often it handed the packet to `gw_rx_deliver`. -/
structure Disposition where
  proxied : List (Mac × Mac × Bytes)
  flooded : List (Mac × Bytes)
  ontoAp : List Bytes
  handed : ℕ
  deriving DecidableEq

/-- The frame offered to the mesh for one destination by a call. -/
def GateCall.proxied : GateCall → Option (Mac × Mac × Bytes)
  | .meshTxProxied .bridge eaddr1 eaddr2 payload => some (eaddr1, eaddr2, payload)
  | _ => none

/-- The frame offered to the mesh for everyone by a call. -/
def GateCall.flooded : GateCall → Option (Mac × Bytes)
  | .meshTxGroupProxied eaddr2 payload => some (eaddr2, payload)
  | _ => none

/-- The frame a call bridges onto the AP vif. -/
def GateCall.ontoAp : GateCall → Option Bytes
  | .txPkt .bridge frame => some frame
  | _ => none

/-- The first call of `gw_rx_deliver`. -/
def GateCall.handsOver : GateCall → Bool
  | .netifIsUp _ => true
  | _ => false

/-- What some calls did with the frame. -/
def Disposition.of (calls : GateCalls) : Disposition where
  proxied := calls.filterMap (·.command.proxied)
  flooded := calls.filterMap (·.command.flooded)
  ontoAp := calls.filterMap (·.command.ontoAp)
  handed := calls.countP (·.command.handsOver)

/-- Neither bridged nor handed over. -/
def Disposition.nothing : Disposition := ⟨[], [], [], 0⟩

/-- Only handed over. -/
def Disposition.delivered : Disposition := ⟨[], [], [], 1⟩

/-- The mesh took a frame it was offered for one destination. -/
def meshAccepted (calls : GateCalls) : Bool :=
  calls.any fun called =>
    match called.command, called.response with
    | .meshTxProxied .bridge .., (taken : Bool) => taken
    | _, _ => false

/-- An AP client was counted. -/
def clientCounted (calls : GateCalls) : Bool :=
  calls.any fun called =>
    match called.command, called.response with
    | .apClientN, (count : ℕ) => decide (0 < count)
    | _, _ => false

/-- A TX packet was allocated. -/
def txAllocated (called : Called GateResponse) : Bool :=
  match called.command, called.response with
  | .alloc _, (allocated : Bool) => allocated
  | _, _ => false

/-- Some TX packet was allocated along the calls. -/
def packetAllocated (calls : GateCalls) : Bool := calls.any txAllocated

/-- A TX packet was given to `mmwlan_tx_pkt`, which consumes it. -/
def txConsumed (called : Called GateResponse) : Bool :=
  match called.command with
  | .txPkt .. => true
  | _ => false

/-- A pbuf was allocated. -/
def pbufAllocated (called : Called GateResponse) : Bool :=
  match called.command, called.response with
  | .pbufAlloc _, (allocated : Bool) => allocated
  | _, _ => false

/-- A pbuf was consumed by `netif->input` on `ERR_OK`, or freed. -/
def pbufConsumed (called : Called GateResponse) : Bool :=
  match called.command, called.response with
  | .netifInput .., (taken : Bool) => taken
  | .pbufFree, _ => true
  | _, _ => false

/-- The received packet was released. -/
def packetReleased (called : Called GateResponse) : Bool :=
  match called.command with
  | .mmpktRelease => true
  | _ => false

/-- What was released and consumed along some calls, given how often the received
packet is to be released: as many buffers as were allocated. -/
structure Accounts (releases : ℕ) (calls : GateCalls) : Prop where
  released : calls.countP packetReleased = releases
  transmitted : calls.countP txAllocated = calls.countP txConsumed
  buffered : calls.countP pbufAllocated = calls.countP pbufConsumed

theorem Accounts.append {first second : ℕ} {front back : GateCalls}
    (before : Accounts first front) (after : Accounts second back) :
    Accounts (first + second) (front ++ back) where
  released := by rw [List.countP_append, before.released, after.released]
  transmitted := by
    rw [List.countP_append, List.countP_append, before.transmitted, after.transmitted]
  buffered := by rw [List.countP_append, List.countP_append, before.buffered, after.buffered]

theorem Disposition.of_append {front back : GateCalls} (idle : Disposition.of front = .nothing) :
    Disposition.of (front ++ back) = Disposition.of back := by
  obtain ⟨proxied, flooded, ontoAp, handed⟩ := Disposition.mk.inj idle
  simp only [Disposition.of, List.filterMap_append, List.countP_append, proxied, flooded, ontoAp,
    handed, List.nil_append, Nat.zero_add]

/-- The calls by which a frame is learned from and answered. -/
def GateCall.answers : GateCall → Bool
  | .nowMs | .learnLocked .. | .announceTask | .notifyGive | .lookupLocked .. | .alloc _
  | .txPkt .proxyArp _ | .meshTxProxied .proxyArp .. | .espLogI => true
  | _ => false

/-- The calls by which a frame is looked at that is not answered. -/
def GateCall.looks : GateCall → Bool
  | .nowMs | .learnLocked .. | .announceTask | .notifyGive | .lookupLocked .. => true
  | _ => false

theorem GateCall.looks_of_learns (call : GateCall) (learns : call.learns = true) :
    call.looks = true := by
  cases call <;> first | rfl | cases learns

/-- Looking at a frame tells nothing of what the other side takes. -/
theorem taken_of_looks {front back : GateCalls}
    (looks : ∀ called ∈ front, called.command.looks = true) :
    meshAccepted (front ++ back) = meshAccepted back ∧
      clientCounted (front ++ back) = clientCounted back ∧
        packetAllocated (front ++ back) = packetAllocated back := by
  induction front with
  | nil => exact ⟨rfl, rfl, rfl⟩
  | cons called front ih =>
      obtain ⟨here, later⟩ := List.forall_mem_cons.mp looks
      obtain ⟨accepted, counted, allocated⟩ := ih later
      obtain ⟨command, response⟩ := called
      cases command <;> first | exact ⟨accepted, counted, allocated⟩ | cases here

end Rimba.Gate
