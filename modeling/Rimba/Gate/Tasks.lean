import Rimba.Gate.ArpInterleaving
import Rimba.Gate.DatapathCalls

/-! # The gate's tasks together

The callbacks of `Rimba.Gate.Datapath` in the tasks that run them, over what
they share: the proxy-ARP table, the AP clients, and the notification count of
the announce task. Each call is served on its own, a locked section as a whole,
and the calls of the tasks come in any order. A task takes on a callback once
`app_main` has armed it. The clock and what the driver, the network stack and
the allocator answer are left to the outside.
-/

namespace Rimba.Gate

open Foundation

/-- What the gate's tasks share. -/
structure GateState where
  /-- `g_gw_arp` -/
  table : ArpTable
  /-- `g_ap_clients` and `g_ap_client_n` -/
  clients : ApClients
  /-- The notifications of the announce task that it has not taken, without the
  bound of a 32-bit count. -/
  notified : ℕ
  /-- `g_gw_arp_task != NULL` -/
  announceTask : Bool
  /-- The mesh is up. -/
  meshStarted : Bool
  /-- `ap_sta_status_cb` is armed. -/
  apEnabled : Bool
  /-- `gw_mesh_rx_cb` is registered. -/
  meshRx : Bool
  /-- `gw_ap_rx_cb` is registered. -/
  apRx : Bool
  /-- `gate_ae_rx_cb` is registered. -/
  aeRx : Bool

/-- The gate before `app_main` starts the mesh. -/
def GateState.boot : GateState :=
  ⟨.empty, .empty, 0, false, false, false, false, false, false⟩

/-- What the outside answers: the milliseconds of the clock, or whether a call
succeeded. -/
structure GateOutside where
  now : UInt32
  succeeds : Bool

/-- How a call is served. -/
def gateServe : Service GateState GateOutside GateResponse :=
  fun state call outside =>
    match call with
    | .nowMs => (outside.now, state)
    | .learnLocked now ip mac side =>
        let learned := gwArpLearnLocked state.table now ip mac side
        (learned.2, { state with table := learned.1 })
    | .forgetMac mac => ((), { state with table := gwArpForgetMac state.table mac })
    | .lookupLocked now ip =>
        let found := gwArpLookupLocked state.table now ip
        (found.2, { state with table := found.1 })
    | .announceLocked now =>
        let swept := gwArpAnnounceLocked state.table now
        (swept.2, { state with table := swept.1 })
    | .announceTask => (state.announceTask, state)
    | .notifyGive => ((), { state with notified := state.notified + 1 })
    | .notifyTake => ((), { state with notified := 0 })
    | .isApClient mac => (gateIsApClient state.clients mac, state)
    | .apClientN => (state.clients.n, state)
    | .apStaAuthorized mac =>
        ((), { state with clients := apStaAuthorizedLocked state.clients mac })
    | .apStaUnknown mac => ((), { state with clients := apStaUnknownLocked state.clients mac })
    | .alloc _ | .txPkt .. | .meshTxProxied .. | .meshTxGroupProxied .. | .netifIsUp _
    | .pbufAlloc _ | .netifInput .. => (outside.succeeds, state)
    | .mmpktRelease | .pbufFree | .espLogI => ((), state)
    | .meshStart => (outside.succeeds, { state with meshStarted := true })
    | .apEnable => (outside.succeeds, { state with apEnabled := true })
    | .createAnnounceTask => ((), { state with announceTask := true })
    | .registerRx .mesh => (outside.succeeds, { state with meshRx := outside.succeeds })
    | .registerRx .ap => (outside.succeeds, { state with apRx := outside.succeeds })
    | .registerAeRx => ((), { state with aeRx := true })

/-- `app_main`, and the tasks it starts. -/
inductive GateContext where
  | appMain
  | task (task : GateTask)
  deriving DecidableEq

/-- What a task runs from its start to its return: a callback, or one round of
the loop of the announce task. -/
inductive GateJob where
  | appMain
  | meshRx (mmpkt : Mmpkt)
  | aeRx (eaddr1 eaddr2 : Mac) (payload : Bytes)
  | apRx (mmpkt : Mmpkt)
  | apStatus (status : Option ApStaStatus)
  | announce

/-- The tasks run their jobs once these are armed. -/
def gateAdmits (state : GateState) : GateContext → GateJob → Bool
  | .appMain, .appMain => !state.meshStarted
  | .task .meshRx, .meshRx _ => state.meshRx
  | .task .meshRx, .aeRx .. => state.aeRx
  | .task .apRx, .apRx _ => state.apRx
  | .task .apStatus, .apStatus _ => state.apEnabled
  | .task .announce, .announce => state.announceTask
  | _, _ => false

/-- The jobs that handle a received frame. -/
def GateJob.receives : GateJob → Bool
  | .meshRx _ | .aeRx .. | .apRx _ => true
  | _ => false

section

variable (macs : GateMacs)

/-- The function behind a job. -/
def gateProgram : GateJob → GateThread Unit
  | .appMain => Datapath.appMain
  | .meshRx mmpkt => Datapath.gwMeshRxCb mmpkt
  | .aeRx eaddr1 eaddr2 payload => do
      let _ ← Datapath.gateAeRxCb eaddr1 eaddr2 payload
      pure ()
  | .apRx mmpkt => Datapath.gwApRxCb macs mmpkt
  | .apStatus status => Datapath.apStaStatusCb status
  | .announce => Datapath.gwArpAnnounceTask

/-- The gate's tasks, from a boot. -/
def gateMachine :
    Machine (Pool GateContext GateJob GateState GateResponse)
      (Turn GateContext GateJob GateOutside) :=
  poolMachine gateServe (gateProgram macs) gateAdmits .boot

end

/-- A call in the history of the gate. -/
abbrev GateEntry := Entry GateContext GateState GateResponse

/-- **What a call does to the slots in use.** Each of them is as before, or holds
the binding a learn brings. -/
theorem gateServe_used {state : GateState} {call : GateCall} {outside : GateOutside}
    {i : Fin gwArpMax} (used : ((gateServe state call outside).2.table i).used = true) :
    (gateServe state call outside).2.table i = state.table i ∨
      ∃ now ip mac side, call = .learnLocked now ip mac side ∧
        (gateServe state call outside).2.table i = ⟨ip, mac, side, true, now⟩ := by
  cases call with
  | learnLocked now ip mac side =>
      obtain ⟨slot, filled, _⟩ := gwArpLearnLocked_cases state.table now ip mac side
      change (gwArpLearnLocked state.table now ip mac side).1 i = _ ∨ _
      by_cases here : i = slot
      · refine .inr ⟨now, ip, mac, side, rfl, ?_⟩
        change (gwArpLearnLocked state.table now ip mac side).1 i = _
        rw [filled, here, Function.update_self]
      · exact .inl (by rw [filled, Function.update_of_ne here])
  | forgetMac mac => exact .inl (gwArpForgetMac_of_used used)
  | lookupLocked now ip => exact .inl (gwArpLookupLocked_of_used used)
  | announceLocked now => exact .inl (gwArpAgeOut_of_used used)
  | registerRx side => cases side <;> exact .inl rfl
  | _ => exact .inl rfl

/-- **What a call does to the clients.** Each of them was one before, or is the
station an authorization brings. -/
theorem gateServe_clients {state : GateState} (distinct : state.clients.Distinct)
    {call : GateCall} {outside : GateOutside} {mac : Mac}
    (client : (gateServe state call outside).2.clients.Mem mac) :
    state.clients.Mem mac ∨ call = .apStaAuthorized mac := by
  cases call with
  | apStaAuthorized entered =>
      by_cases same : mac = entered
      · exact .inr (by rw [same])
      · exact .inl ((mem_apStaAuthorizedLocked_of_ne same).mp client)
  | apStaUnknown left => exact .inl ((mem_apStaUnknownLocked distinct).mp client).1
  | registerRx side => cases side <;> exact .inl client
  | _ => exact .inl client

theorem gateServe_distinct {state : GateState} (distinct : state.clients.Distinct)
    (call : GateCall) (outside : GateOutside) :
    (gateServe state call outside).2.clients.Distinct := by
  cases call with
  | apStaAuthorized mac => exact distinct.authorized mac
  | apStaUnknown mac => exact distinct.unknown mac
  | registerRx side => cases side <;> exact distinct
  | _ => exact distinct

/-- The two addresses of a gate. -/
def exampleGate : GateMacs := ⟨.station 7, .station 8⟩

/-- `app_main` to its end. -/
def bootTurns : List (Turn GateContext GateJob GateOutside) :=
  .start .appMain .appMain :: List.replicate 6 (.resume .appMain ⟨0, true⟩)

/-- An IPv4 packet of the mesh host 10.9.9.105 to the gate. -/
def meshHostPacket : Mmpkt :=
  some ([2, 0, 0, 0, 0, 8, 2, 0, 0, 0, 0, 5, 0x08, 0x00] ++
    (List.replicate 12 0 ++ ([10, 9, 9, 105] ++ List.replicate 4 0)))

/-- An ARP request of the AP client 10.9.9.2 for that host. -/
def clientRequest : Mmpkt :=
  some (List.replicate 6 0xff ++ ([2, 0, 0, 0, 0, 1, 0x08, 0x06] ++
    ([0, 1, 0x08, 0, 6, 4, 0, 1, 2, 0, 0, 0, 0, 1, 10, 9, 9, 2] ++
      (List.replicate 6 0 ++ [10, 9, 9, 105]))))

end Rimba.Gate
