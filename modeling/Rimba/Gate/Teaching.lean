import Rimba.Gate.Tasks

/-! # What the gate teaches

Every ARP reply the gate makes itself, in answer to a request or by the announce
task, tells a host that an address is at a hardware address. The gate copies the
two out of its table under the lock and sends them without it, while other tasks
evict and refill the slot they came from. Still, the binding is always one that
a single learn recorded, on the other side of the gate than the host's, and an
announced one was live together with the entry of the host it is announced to
(`Rimba.Gate.teaching_recorded`).
-/

namespace Rimba.Gate

open Foundation Foundation.Thread

/-- An ARP reply of the gate's own: the vif it goes out on, the host it is for,
and the binding it teaches. -/
structure Teaching where
  sender : Sender
  side : GwSide
  host : Mac
  hostIp : UInt32
  ip : UInt32
  mac : Mac

/-- What a transmission teaches, read from its bytes; frames that are only
bridged are not the gate's own. -/
def GateCall.teaching : GateCall → Option Teaching
  | .txPkt .bridge _ | .meshTxProxied .bridge .. => none
  | .txPkt sender frame =>
      some ⟨sender, .ap, macAt frame 0, taughtHost frame 14, (taught frame 14).1,
        (taught frame 14).2⟩
  | .meshTxProxied sender eaddr1 _ payload =>
      some ⟨sender, .mesh, eaddr1, taughtHost payload 8, (taught payload 8).1,
        (taught payload 8).2⟩
  | _ => none

/-- What an Ethernet ARP reply of the gate's own teaches. -/
theorem teaching_gwArpBuildReply {sender : Sender} (own : sender ≠ .bridge) (reqMac : Mac)
    (reqIp tpa : UInt32) (tpaMac : Mac) :
    (GateCall.txPkt sender (gwArpBuildReply (stackBuffer 42) reqMac reqIp tpa tpaMac)).teaching =
      some ⟨sender, .ap, reqMac, reqIp, tpa, tpaMac⟩ := by
  obtain ⟨binding, dst, host⟩ :=
    taught_gwArpBuildReply (length_stackBuffer 42) reqMac reqIp tpa tpaMac
  cases sender with
  | bridge => exact (own rfl).elim
  | proxyArp | announce => simp only [GateCall.teaching, binding, dst, host]

/-- What a proxied ARP reply of the gate's own teaches. -/
theorem teaching_snapArpReply {sender : Sender} (own : sender ≠ .bridge) (sha eaddr2 : Mac)
    (spa : UInt32) (tha : Mac) (tpa : UInt32) :
    (GateCall.meshTxProxied sender tha eaddr2
        (snapArpReply (stackBuffer (8 + 28)) sha spa tha tpa)).teaching =
      some ⟨sender, .mesh, tha, tpa, spa, sha⟩ := by
  obtain ⟨binding, host⟩ := taught_snapArpReply (length_stackBuffer (8 + 28)) sha spa tha tpa
  cases sender with
  | bridge => exact (own rfl).elim
  | proxyArp | announce => simp only [GateCall.teaching, binding, host]

/-- A single learn of the history brought the binding, on that side. -/
def Recorded (past : List GateEntry) (ip : UInt32) (mac : Mac) (side : GwSide) : Prop :=
  ∃ entry ∈ past, ∃ now, entry.called.command = .learnLocked now ip mac side

/-- The slot was in use and not expired in the table a sweep took its snapshot
of, and its entry is this one. -/
def LiveIn (sweep : GateEntry) (ip : UInt32) (mac : Mac) (side : GwSide) : Prop :=
  ∃ now, sweep.called.command = .announceLocked now ∧ ∃ i,
    (sweep.before.table i).used = true ∧ (sweep.before.table i).expired now = false ∧
      (sweep.before.table i).ip = ip ∧ (sweep.before.table i).mac = mac ∧
        (sweep.before.table i).side = side

/-- What the gate may teach, by its history. -/
def Teaching.Sound (teaching : Teaching) (past : List GateEntry) : Prop :=
  ∃ side, side ≠ teaching.side ∧ Recorded past teaching.ip teaching.mac side ∧
    (teaching.sender = .announce → ∃ sweep ∈ past,
      LiveIn sweep teaching.hostIp teaching.host teaching.side ∧
        LiveIn sweep teaching.ip teaching.mac side ∧
          Recorded past teaching.hostIp teaching.host teaching.side)

theorem Recorded.append {past : List GateEntry} {ip : UInt32} {mac : Mac} {side : GwSide}
    (recorded : Recorded past ip mac side) (more : List GateEntry) :
    Recorded (more ++ past) ip mac side := by
  obtain ⟨entry, member, now, command⟩ := recorded
  exact ⟨entry, List.mem_append_right more member, now, command⟩

theorem Teaching.Sound.append {teaching : Teaching} {past : List GateEntry}
    (sound : teaching.Sound past) (more : List GateEntry) : teaching.Sound (more ++ past) := by
  obtain ⟨side, other, recorded, announced⟩ := sound
  refine ⟨side, other, recorded.append more, fun announce => ?_⟩
  obtain ⟨sweep, member, host, live, known⟩ := announced announce
  exact ⟨sweep, List.mem_append_right more member, host, live, known.append more⟩

/-- The table holds recorded bindings only, and only sound bindings are taught. -/
def teachingDiscipline : Discipline GateContext GateJob GateState GateResponse where
  holds state past := ∀ i, (state.table i).used = true →
    Recorded past (state.table i).ip (state.table i).mac (state.table i).side
  permits _ past command := ∀ teaching ∈ command.teaching, teaching.Sound past
  idle _ _ _ := True

variable {task : GateContext} {past : List GateEntry}

/-- A thread keeps to the discipline from a history on. -/
abbrev Teaches {Value : Type} (thread : GateThread Value) (task : GateContext)
    (done : Value → List GateEntry → Prop) (past : List GateEntry) : Prop :=
  thread.Keeps gateServe teachingDiscipline task done past

theorem permits_of_none {command : GateCall} (none : command.teaching = none) :
    teachingDiscipline.permits task past command := by
  intro teaching taught
  rw [none] at taught
  cases taught

/-- A thread that sends nothing of the gate's own. -/
theorem teaches_of_only {Value : Type} {thread : GateThread Value}
    (only : thread.Only fun call => call.teaching = none) :
    Teaches thread task (fun _ _ => True) past :=
  Keeps.of_permits (only.mono fun _ none _ => permits_of_none none) fun _ _ => trivial

theorem GateCall.teaching_of_learns (call : GateCall) (learns : call.learns = true) :
    call.teaching = none := by
  cases call <;> first | rfl | cases learns

theorem GateCall.teaching_of_delivers (call : GateCall) (delivers : call.delivers = true) :
    call.teaching = none := by
  cases call <;> first | rfl | cases delivers

/-- An Ethernet ARP reply that teaches something sound. -/
theorem teaches_gwTxApFrame {sender : Sender} (own : sender ≠ .bridge) {reqMac tpaMac : Mac}
    {reqIp tpa : UInt32} (sound : Teaching.Sound ⟨sender, .ap, reqMac, reqIp, tpa, tpaMac⟩ past) :
    Teaches (Datapath.gwTxApFrame sender (gwArpBuildReply (stackBuffer 42) reqMac reqIp tpa tpaMac))
      task (fun _ _ => True) past := by
  refine Keeps.call (permits_of_none rfl) fun more before choice _ _ => ?_
  apply Keeps.ite
  · intro _
    refine Keeps.call (fun teaching taught => ?_) fun _ _ _ _ _ => trivial
    rw [teaching_gwArpBuildReply own] at taught
    cases taught
    exact sound.append (_ :: more)
  · exact fun _ => trivial

/-- A proxied ARP reply that teaches something sound. -/
theorem permits_snapArpReply {sender : Sender} (own : sender ≠ .bridge) {sha eaddr2 tha : Mac}
    {spa tpa : UInt32} (sound : Teaching.Sound ⟨sender, .mesh, tha, tpa, spa, sha⟩ past) :
    teachingDiscipline.permits task past (.meshTxProxied sender tha eaddr2
      (snapArpReply (stackBuffer (8 + 28)) sha spa tha tpa)) := by
  intro teaching taught
  rw [teaching_snapArpReply own] at taught
  cases taught
  exact sound

/-- What a lookup returns was recorded. -/
theorem recorded_of_lookup {state : GateState} (valid : teachingDiscipline.holds state past)
    {now ip : UInt32} {mac : Mac} {side : GwSide}
    (found : (gwArpLookupLocked state.table now ip).2 = some (mac, side)) :
    Recorded past ip mac side := by
  rcases gwArpLookupLocked_cases state.table now ip with
    ⟨_, result⟩ | ⟨slot, used, held, ⟨_, result⟩ | ⟨_, result⟩⟩ <;> rw [result] at found
  · cases found
  · cases found
  · cases found
    rw [← held]
    exact valid slot used

/-- The answer to a request teaches the requester what the lookup found. -/
theorem teaches_gwProxyReply {fromSide side : GwSide} (other : side ≠ fromSide) {reqMac tmac : Mac}
    {spa tpa : UInt32} (recorded : Recorded past tpa tmac side) :
    Teaches (Datapath.gwProxyReply fromSide reqMac spa tpa tmac) task (fun _ _ => True) past := by
  have own : Sender.proxyArp ≠ .bridge := by decide
  cases fromSide with
  | ap => exact teaches_gwTxApFrame own ⟨side, other, recorded, nofun⟩
  | mesh =>
      apply Keeps.call
      · exact permits_snapArpReply own ⟨side, other, recorded, nofun⟩
      · exact fun _ _ _ _ _ => trivial

theorem teaches_gwProxyArp (eth : Bytes) (fromSide : GwSide) :
    Teaches (Datapath.gwProxyArp eth fromSide) task (fun _ _ => True) past := by
  apply Keeps.ite
  · intro _
    refine Keeps.call (permits_of_none rfl) fun more before choice _ _ => ?_
    refine Keeps.call (permits_of_none rfl) fun later state outside _ valid => ?_
    generalize answered : (gateServe state (.lookupLocked (gateServe before .nowMs choice).1
      (ipAt eth (14 + 24))) outside).1 = answer
    rcases answer with _ | ⟨tmac, side⟩
    · trivial
    · apply Keeps.ite
      · exact fun _ => trivial
      · intro other
        have recorded := recorded_of_lookup valid answered
        apply Keeps.bind
        apply (teaches_gwProxyReply other (recorded.append [_])).mono
        exact fun _ _ _ => Keeps.call (permits_of_none rfl) fun _ _ _ _ _ => trivial
  · exact fun _ => trivial

/-- Every row of the view was live in one sweep of the history, and recorded. -/
def Snapshot (view : List ArpView) (past : List GateEntry) : Prop :=
  ∃ sweep ∈ past, ∀ row ∈ view,
    LiveIn sweep row.ip row.mac row.side ∧ Recorded past row.ip row.mac row.side

theorem Snapshot.append {view : List ArpView} (taken : Snapshot view past)
    (more : List GateEntry) : Snapshot view (more ++ past) := by
  obtain ⟨sweep, member, rows⟩ := taken
  exact ⟨sweep, List.mem_append_right more member,
    fun row inView => ⟨(rows row inView).1, (rows row inView).2.append more⟩⟩

/-- One row of a snapshot is taught to the host of another. -/
theorem Snapshot.sound {view : List ArpView} (taken : Snapshot view past) {a b : ArpView}
    (inViewA : a ∈ view) (inViewB : b ∈ view) (other : ¬ a.side = b.side) :
    Teaching.Sound ⟨.announce, a.side, a.mac, a.ip, b.ip, b.mac⟩ past := by
  obtain ⟨sweep, member, rows⟩ := taken
  obtain ⟨hostLive, hostRecorded⟩ := rows a inViewA
  obtain ⟨live, recorded⟩ := rows b inViewB
  exact ⟨b.side, fun same => other same.symm, recorded,
    fun _ => ⟨sweep, member, hostLive, live, hostRecorded⟩⟩

/-- The history behind a round of the loops only grows. -/
theorem Snapshot.kept {view : List ArpView} {Value : Type} {thread : GateThread Value}
    (teaches : Teaches thread task (fun _ _ => True) past) (taken : Snapshot view past) :
    Teaches thread task (fun _ final => Snapshot view final) past := by
  induction thread generalizing past with
  | ret value => exact taken
  | call command next ih =>
      refine ⟨teaches.1, fun more before choice foreign valid => ?_⟩
      exact ih _ (teaches.2 more before choice foreign valid) (taken.append (_ :: more))

theorem teaches_gwArpTeach {view : List ArpView} (taken : Snapshot view past) {a b : ArpView}
    (inViewA : a ∈ view) (inViewB : b ∈ view) :
    Teaches (Datapath.gwArpTeach a b) task (fun _ final => Snapshot view final) past := by
  have own : Sender.announce ≠ .bridge := by decide
  apply taken.kept
  apply Keeps.ite
  · exact fun _ => trivial
  · intro other
    have sound := taken.sound inViewA inViewB other
    cases side : a.side with
    | ap =>
        rw [side] at sound
        exact teaches_gwTxApFrame own sound
    | mesh =>
        rw [side] at sound
        exact Keeps.call (permits_snapArpReply own sound) fun _ _ _ _ _ => trivial

/-- The view of a sweep is a snapshot of that sweep. -/
theorem snapshot_of_sweep (task : GateContext) {state : GateState}
    (valid : teachingDiscipline.holds state past) (now : UInt32) :
    Snapshot (gwArpAnnounceLocked state.table now).2
      (⟨task, state, ⟨.announceLocked now, (gwArpAnnounceLocked state.table now).2⟩⟩ :: past) := by
  refine ⟨_, List.mem_cons_self .., fun row inView => ?_⟩
  obtain ⟨i, used, young, rfl⟩ := mem_gwArpAnnounceLocked.mp inView
  exact ⟨⟨now, rfl, i, used, young, rfl, rfl, rfl⟩, (valid i used).append [_]⟩

theorem teaches_gwArpAnnounceOnce :
    Teaches Datapath.gwArpAnnounceOnce task (fun _ _ => True) past := by
  refine Keeps.call (permits_of_none rfl) fun more before choice _ _ => ?_
  refine Keeps.call (permits_of_none rfl) fun later state outside _ valid => ?_
  have taken := snapshot_of_sweep task valid (gateServe before .nowMs choice).1
  apply Keeps.bind
  apply (Keeps.forEach _ taken).mono
  · intro _ final _
    apply Keeps.ite
    · exact fun _ => Keeps.call (permits_of_none rfl) fun _ _ _ _ _ => trivial
    · exact fun _ => trivial
  · intro a inViewA middle kept
    apply Keeps.forEach _ kept
    exact fun b inViewB inner keptInner => teaches_gwArpTeach keptInner inViewA inViewB

theorem teaches_bind {First Value : Type} {first : GateThread First}
    {later : First → GateThread Value}
    (teaches : Teaches first task (fun _ _ => True) past)
    (rest : ∀ value middle, Teaches (later value) task (fun _ _ => True) middle) :
    Teaches (first >>= later) task (fun _ _ => True) past :=
  Keeps.bind (teaches.mono fun value middle _ => rest value middle)

theorem teaches_gwArpSnoop (eth : Bytes) (side : GwSide) :
    Teaches (Datapath.gwArpSnoop eth side) task (fun _ _ => True) past :=
  teaches_of_only ((gwArpSnoop_only eth side).mono GateCall.teaching_of_learns)

theorem teaches_gwRxDeliver (mmpkt : Mmpkt) (side : GwSide) :
    Teaches (Datapath.gwRxDeliver mmpkt side) task (fun _ _ => True) past :=
  teaches_of_only ((gwRxDeliver_only mmpkt side).mono GateCall.teaching_of_delivers)

theorem teaches_meshToAp (frame : Bytes) :
    Teaches (Datapath.meshToAp frame) task (fun _ _ => True) past := by
  apply teaches_of_only
  refine Only.call rfl fun allocated => ?_
  apply Only.ite
  · refine Only.call rfl fun sent => ?_
    apply Only.ite
    · exact Only.perform rfl
    · trivial
  · trivial

theorem teaches_gwMeshRxCb (mmpkt : Mmpkt) :
    Teaches (Datapath.gwMeshRxCb mmpkt) task (fun _ _ => True) past := by
  apply teaches_bind
  · apply Keeps.ite
    · exact fun _ => teaches_bind (teaches_gwArpSnoop ..) fun _ _ => teaches_gwProxyArp ..
    · exact fun _ => trivial
  · intro answered middle
    apply Keeps.ite
    · exact fun _ => Keeps.call (permits_of_none rfl) fun _ _ _ _ _ => trivial
    · intro _
      apply teaches_bind
      · apply Keeps.ite
        · exact fun _ => Keeps.call (permits_of_none rfl) fun _ _ _ _ _ => trivial
        · exact fun _ => trivial
      · intro bridged inner
        apply Keeps.ite
        · exact fun _ => teaches_bind (teaches_meshToAp _) fun _ _ => teaches_gwRxDeliver ..
        · exact fun _ => teaches_gwRxDeliver ..

theorem teaches_gwApRxCb (macs : GateMacs) (mmpkt : Mmpkt) :
    Teaches (Datapath.gwApRxCb macs mmpkt) task (fun _ _ => True) past := by
  rw [Datapath.gwApRxCb]
  apply teaches_bind
  · cases mmpkt with
    | none => trivial
    | some eth =>
        apply Keeps.ite
        · exact fun _ => teaches_bind (teaches_gwArpSnoop ..) fun _ _ => teaches_gwProxyArp ..
        · exact fun _ => trivial
  · intro answered middle
    apply Keeps.ite
    · exact fun _ => Keeps.call (permits_of_none rfl) fun _ _ _ _ _ => trivial
    · intro _
      exact teaches_of_only (apSettled_only (fun _ _ _ _ => rfl) (fun _ _ _ => rfl) rfl
        GateCall.teaching_of_delivers)

theorem teaches_gateAeRxCb (eaddr1 eaddr2 : Mac) (payload : Bytes) :
    Teaches (Datapath.gateAeRxCb eaddr1 eaddr2 payload) task (fun _ _ => True) past := by
  refine Keeps.call (permits_of_none rfl) fun _ _ _ _ _ => ?_
  apply Keeps.ite
  · intro _
    apply Keeps.ite
    · intro _
      apply teaches_bind (teaches_gwArpSnoop ..)
      exact fun _ _ => teaches_bind (teaches_meshToAp _) fun _ _ => trivial
    · exact fun _ => trivial
  · exact fun _ => trivial

theorem teaches_apStaStatusCb (status : Option ApStaStatus) :
    Teaches (Datapath.apStaStatusCb status) task (fun _ _ => True) past := by
  apply teaches_of_only ((apStaStatusCb_only status).mono _)
  intro call ofStatus
  cases call <;> first | rfl | cases ofStatus

theorem teaches_appMain : Teaches Datapath.appMain task (fun _ _ => True) past := by
  apply teaches_of_only (appMain_only.mono _)
  intro call starts
  cases call <;> first | rfl | cases starts

theorem teachingDiscipline_sound (macs : GateMacs) :
    teachingDiscipline.Sound gateServe (gateProgram macs) gateAdmits .boot where
  boot i used := by simp only [GateState.boot, ArpTable.empty, Bool.false_eq_true] at used
  unstarted _ := trivial
  permits_stable _ _ more _ _ permitted := fun teaching taught =>
    (permitted teaching taught).append more
  idle_stable _ _ _ _ _ _ := trivial
  serves task before past command choice valid _ i used := by
    rcases gateServe_used used with same | ⟨now, ip, mac, side, learns, filled⟩
    · rw [same] at used ⊢
      exact (valid i used).append [_]
    · rw [filled]
      exact ⟨_, List.mem_cons_self .., now, learns⟩
  keeps task shared past last job _ _ _ := by
    cases job with
    | appMain => exact teaches_appMain
    | meshRx mmpkt => exact teaches_gwMeshRxCb mmpkt
    | aeRx eaddr1 eaddr2 payload =>
        exact teaches_bind (teaches_gateAeRxCb eaddr1 eaddr2 payload) fun _ _ => trivial
    | apRx mmpkt => exact teaches_gwApRxCb macs mmpkt
    | apStatus status => exact teaches_apStaStatusCb status
    | announce =>
        exact Keeps.call (permits_of_none rfl) fun _ _ _ _ _ => teaches_gwArpAnnounceOnce

/-- In every run of the gate's tasks, whatever a reply of the gate's own teaches
is a binding that a single earlier learn recorded, on the side opposite to the
host's. What the announce task teaches was live in the table of one sweep
together with the entry of the host. -/
theorem teaching_recorded (macs : GateMacs)
    {turns : List (Turn GateContext GateJob GateOutside)}
    {pool : Pool GateContext GateJob GateState GateResponse}
    (reached : (gateMachine macs).run turns = some pool) {later earlier : List GateEntry}
    {entry : GateEntry} (split : pool.history = later ++ entry :: earlier) {teaching : Teaching}
    (taught : entry.called.command.teaching = some teaching) : teaching.Sound earlier :=
  (((teachingDiscipline_sound macs).invariant.run reached).kept.mem split).2.1 teaching taught

/-- An AP client asks for a mesh host, behind a packet of that host. -/
def askedForMeshHost : List (Turn GateContext GateJob GateOutside) :=
  bootTurns ++ .start (.task .meshRx) (.meshRx meshHostPacket) ::
    List.replicate 6 (.resume (.task .meshRx) ⟨1000, false⟩) ++
    .start (.task .apRx) (.apRx clientRequest) ::
    List.replicate 8 (.resume (.task .apRx) ⟨2000, true⟩)

/-- The client is taught what the host's packet recorded. -/
theorem askedForMeshHost_taught :
    ∃ pool entry earlier teaching, (gateMachine exampleGate).run askedForMeshHost = some pool ∧
      pool.history = [] ++ entry :: earlier ∧ entry.called.command.teaching = some teaching ∧
        teaching.mac = .station 5 ∧ teaching.Sound earlier := by
  have evaluated : ∃ pool entry earlier teaching,
      (gateMachine exampleGate).run askedForMeshHost = some pool ∧
        pool.history = [] ++ entry :: earlier ∧ entry.called.command.teaching = some teaching ∧
          teaching.mac = .station 5 := ⟨_, _, _, _, rfl, rfl, rfl, rfl⟩
  obtain ⟨pool, entry, earlier, teaching, reached, split, taught, mac⟩ := evaluated
  exact ⟨pool, entry, earlier, teaching, reached, split, taught, mac,
    teaching_recorded exampleGate reached split taught⟩

end Rimba.Gate
