import Rimba.Gate.Tasks

/-! # A departed client

When a client leaves, `ap_sta_status_cb` takes it out of the set of AP clients
and then drops its mappings from the proxy-ARP table, under two locks, while the
other tasks go on. Once the callback is over the station is no client until it is
authorized again, and from the moment its mappings are dropped no lookup and no
snapshot yields its address until it is learned again
(`Rimba.Gate.departed_forgotten`). A learn can come in between the two: behind
the drop and before the callback returns (`Rimba.Gate.learned_while_leaving`).
-/

namespace Rimba.Gate

open Foundation Foundation.Thread

/-- The AP status task. -/
abbrev statusTask : GateContext := .task .apStatus

/-- A learn of the address ran its locked body. -/
def LearnsMac (mac : Mac) (entry : GateEntry) : Prop :=
  ∃ now ip side, entry.called.command = .learnLocked now ip mac side

/-- The mappings of the address were dropped. -/
def ForgetsMac (mac : Mac) (entry : GateEntry) : Prop :=
  entry.called.command = .forgetMac mac

/-- The station was entered as a client. -/
def Authorizes (mac : Mac) (entry : GateEntry) : Prop :=
  entry.called.command = .apStaAuthorized mac

/-- The station was removed from the clients. -/
def Removes (mac : Mac) (entry : GateEntry) : Prop :=
  entry.called.command = .apStaUnknown mac

/-- A lookup returned the address, or a sweep took it into its snapshot. -/
def YieldsMac (mac : Mac) (entry : GateEntry) : Prop :=
  (∃ now ip side, entry.called = ⟨.lookupLocked now ip, some (mac, side)⟩) ∨
    ∃ now, ∃ view : List ArpView, entry.called = ⟨.announceLocked now, view⟩ ∧
      ∃ row ∈ view, row.mac = mac

/-- No slot in use holds the hardware address. -/
def ArpTable.Without (table : ArpTable) (mac : Mac) : Prop :=
  ∀ i, (table i).used = true → (table i).mac ≠ mac

/-- What the status callback did for a station that left: its last calls. -/
def Handled (mac : Mac) (past : List GateEntry) : Prop :=
  ∃ before, ownCalls statusTask past =
    ⟨.espLogI, ()⟩ :: ⟨.forgetMac mac, ()⟩ :: ⟨.apStaUnknown mac, ()⟩ :: before

/-- The clients are kept by the status task alone, and both tables are without
the stations that left. -/
def departureDiscipline : Discipline GateContext GateJob GateState GateResponse where
  holds state past := state.clients.Distinct ∧
    (∀ mac, Since (Removes mac) (Authorizes mac) past → ¬ state.clients.Mem mac) ∧
      ∀ mac, Since (ForgetsMac mac) (LearnsMac mac) past → state.table.Without mac
  permits task _ command := command.ofStatus = true → command ≠ .espLogI → task = statusTask
  idle task job past := ∀ mac, task = statusTask →
    job = some (.apStatus (some ⟨.unknown, mac⟩)) → Handled mac past

variable {task : GateContext} {past : List GateEntry}

theorem departureDiscipline_serves {before : GateState} {command : GateCall}
    (choice : GateOutside) (valid : departureDiscipline.holds before past) :
    departureDiscipline.holds (gateServe before command choice).2
      (⟨task, before, ⟨command, (gateServe before command choice).1⟩⟩ :: past) := by
  obtain ⟨distinct, removed, forgotten⟩ := valid
  refine ⟨gateServe_distinct distinct command choice, fun mac left client => ?_,
    fun mac left i used => ?_⟩
  · rcases since_cons.mp left with here | ⟨unauthorized, earlier⟩
    · cases (here : command = .apStaUnknown mac)
      exact ((mem_apStaUnknownLocked distinct).mp client).2 rfl
    · rcases gateServe_clients distinct client with was | brings
      · exact removed mac earlier was
      · exact unauthorized brings
  · rcases since_cons.mp left with here | ⟨unlearned, earlier⟩
    · cases (here : command = .forgetMac mac)
      have kept := gwArpForgetMac_used_iff.mp used
      change (gwArpForgetMac before.table mac i).mac ≠ mac
      rw [gwArpForgetMac_of_used used]
      exact kept.2
    · rcases gateServe_used used with same | ⟨now, ip, learned, side, learns, filled⟩
      · rw [same] at used ⊢
        exact forgotten mac earlier i used
      · rw [filled]
        rintro rfl
        exact unlearned ⟨now, ip, side, learns⟩

theorem GateCall.log_of_receives (call : GateCall) (receives : call.receives = true)
    (ofStatus : call.ofStatus = true) : call = .espLogI := by
  cases call <;> first
    | rfl
    | exact (Bool.false_ne_true receives).elim
    | exact (Bool.false_ne_true ofStatus).elim

/-- A thread that does not keep the clients. -/
theorem departs_of_only {kind : GateCall → Bool} {thread : GateThread Unit} {job : GateJob}
    (only : thread.Only fun call => kind call = true)
    (apart : ∀ call, kind call = true → call.ofStatus = true → call = .espLogI)
    (other : ∀ status, job ≠ .apStatus status) :
    thread.Keeps gateServe departureDiscipline task
      (fun _ => departureDiscipline.idle task (some job)) past := by
  apply Keeps.of_permits
  · apply only.mono
    intro call here past ofStatus notLog
    exact (notLog (apart call here ofStatus)).elim
  · intro _ final mac _ same
    exact (other _ (Option.some.inj same)).elim

theorem departs_apStaStatusCb (status : Option ApStaStatus) :
    (Datapath.apStaStatusCb status).Keeps gateServe departureDiscipline statusTask
      (fun _ => departureDiscipline.idle statusTask (some (.apStatus status))) past := by
  rcases status with _ | ⟨_ | _ | _, mac⟩
  · exact fun _ _ same => nomatch same
  · refine Keeps.call (fun _ _ => rfl) fun more _ _ foreign _ => ?_
    refine Keeps.call (fun _ _ => rfl) fun further _ _ others _ => ?_
    refine Keeps.call (fun _ _ => rfl) fun last _ _ theirs _ => ?_
    rintro left _ ⟨⟩
    refine ⟨ownCalls statusTask past, ?_⟩
    rw [ownCalls_cons_self, ownCalls_append_of_foreign theirs, ownCalls_cons_self,
      ownCalls_append_of_foreign others, ownCalls_cons_self, ownCalls_append_of_foreign foreign]
    rfl
  · refine Keeps.call (fun _ _ => rfl) fun more _ _ foreign _ => ?_
    exact Keeps.call (fun _ _ => rfl) fun _ _ _ _ _ => fun _ _ same => nomatch same
  · exact fun _ _ same => nomatch same

theorem departureDiscipline_sound (macs : GateMacs) :
    departureDiscipline.Sound gateServe (gateProgram macs) gateAdmits .boot where
  boot := ⟨fun i inRange => absurd inRange (Nat.not_lt_zero i),
    fun _ left => (not_since_nil left).elim, fun _ left => (not_since_nil left).elim⟩
  unstarted _ := fun _ _ same => nomatch same
  permits_stable _ _ _ _ _ permitted := permitted
  idle_stable task job past more foreign handled := by
    rintro mac rfl same
    obtain ⟨before, own⟩ := handled mac rfl same
    exact ⟨before, by rw [ownCalls_append_of_foreign foreign, own]⟩
  serves _ _ _ _ choice valid _ := departureDiscipline_serves choice valid
  keeps task shared past last job admitted _ _ := by
    cases job with
    | appMain =>
        refine departs_of_only appMain_only (fun call starts ofStatus => ?_) nofun
        cases call <;> first
          | exact (Bool.false_ne_true starts).elim
          | exact (Bool.false_ne_true ofStatus).elim
    | meshRx mmpkt =>
        exact departs_of_only (gwMeshRxCb_only mmpkt) GateCall.log_of_receives nofun
    | aeRx eaddr1 eaddr2 payload =>
        refine departs_of_only (Only.bind (gateAeRxCb_only eaddr1 eaddr2 payload) fun _ => ?_)
          GateCall.log_of_receives nofun
        trivial
    | apRx mmpkt =>
        exact departs_of_only (gwApRxCb_only macs mmpkt) GateCall.log_of_receives nofun
    | announce =>
        refine departs_of_only gwArpAnnounceTask_only (fun call announces ofStatus => ?_) nofun
        cases call <;> first
          | rfl
          | exact (Bool.false_ne_true announces).elim
          | exact (Bool.false_ne_true ofStatus).elim
    | apStatus status =>
        cases task with
        | appMain => exact (Bool.false_ne_true admitted).elim
        | task task =>
            cases task with
            | apStatus => exact departs_apStaStatusCb status
            | _ => exact (Bool.false_ne_true admitted).elim

/-- The status task's handling of a station that left, in the history: the
removal of the client, the drop of its mappings, and the log behind them. -/
structure Handling (mac : Mac) (history : List GateEntry) where
  since : List GateEntry
  forget : GateEntry
  middle : List GateEntry
  leave : GateEntry
  before : List GateEntry
  split : history = since ++ forget :: (middle ++ leave :: before)
  forgets : ForgetsMac mac forget
  removes : Removes mac leave
  logged : ownCalls statusTask since = [⟨.espLogI, ()⟩]
  between : Foreign statusTask middle

/-- The drop of the mappings, without a learn behind it. -/
theorem Handling.forgotten {mac : Mac} {history more : List GateEntry}
    (handling : Handling mac history)
    (unlearned : ∀ call ∈ more ++ handling.since, ¬ LearnsMac mac call) :
    Since (ForgetsMac mac) (LearnsMac mac) (more ++ history) := by
  refine ⟨more ++ handling.since, handling.forget, handling.middle ++ handling.leave ::
    handling.before, ?_, handling.forgets, unlearned⟩
  rw [List.append_assoc, ← handling.split]

/-- A call leaves every other client and every mapping of another address alone. -/
def Spares (mac : Mac) (entry : GateEntry) : Prop :=
  ∀ outside, (∀ other, other ≠ mac →
      gateIsApClient (gateServe entry.before entry.called.command outside).2.clients other =
        gateIsApClient entry.before.clients other) ∧
    ∀ i, (entry.before.table i).mac ≠ mac →
      (gateServe entry.before entry.called.command outside).2.table i = entry.before.table i

theorem exists_handling {mac : Mac} {history : List GateEntry} (handled : Handled mac history) :
    Nonempty (Handling mac history) := by
  obtain ⟨earliest, own⟩ := handled
  obtain ⟨later, log, behindLog, rfl, others, mine, logs, own⟩ := split_of_ownCalls own
  obtain ⟨further, forget, behindForget, rfl, theirs, _, forgets, own⟩ := split_of_ownCalls own
  obtain ⟨middle, leave, before, rfl, between, _, removes, _⟩ := split_of_ownCalls own
  refine ⟨later ++ log :: further, forget, middle, leave, before, ?_,
    congrArg Called.command forgets, congrArg Called.command removes, ?_, between⟩
  · simp only [List.append_assoc, List.cons_append]
  · obtain ⟨_, state, called⟩ := log
    cases mine
    cases logs
    have none : ownCalls statusTask further = [] := by
      have skipped := ownCalls_append_of_foreign theirs []
      rwa [List.append_nil] at skipped
    rw [ownCalls_append_of_foreign others, ownCalls_cons_self, none]

/-- A call of the status task for a station that left spares the others. -/
theorem spares_of_command {mac : Mac} {entry : GateEntry}
    (distinct : entry.before.clients.Distinct)
    (command : entry.called.command = .apStaUnknown mac ∨
      entry.called.command = .forgetMac mac ∨ entry.called.command = .espLogI) :
    Spares mac entry := by
  obtain ⟨task, before, called⟩ := entry
  obtain ⟨command', response⟩ := called
  intro outside
  rcases command with rfl | rfl | rfl
  · refine ⟨fun other different => Bool.eq_iff_iff.mpr ?_, fun _ _ => rfl⟩
    rw [gateIsApClient_iff, gateIsApClient_iff]
    exact (mem_apStaUnknownLocked distinct).trans (and_iff_left different)
  · refine ⟨fun _ _ => rfl, fun i other => ?_⟩
    change gwArpForgetMac before.table mac i = _
    simp only [gwArpForgetMac, other, decide_false, Bool.and_false, Bool.false_eq_true, ↓reduceIte]
  · exact ⟨fun _ _ => rfl, fun _ _ => rfl⟩

section

variable {pool : Pool GateContext GateJob GateState GateResponse}
  (valid : departureDiscipline.Valid gateServe pool) {mac : Mac}

include valid

theorem statusTask_of_authorizes {call : GateEntry} (member : call ∈ pool.history)
    (authorizes : Authorizes mac call) : call.task = statusTask := by
  obtain ⟨later, earlier, split⟩ := List.append_of_mem member
  have permitted := (valid.kept.mem split).2.1
  unfold Authorizes at authorizes
  rw [authorizes] at permitted
  exact permitted rfl nofun

/-- No station is authorized while the status task handles one that left. -/
theorem Handling.removed (handling : Handling mac pool.history) :
    Since (Removes mac) (Authorizes mac) pool.history := by
  obtain ⟨since, forget, middle, leave, before, split, forgets, removes, logged, between⟩ :=
    handling
  refine ⟨since ++ forget :: middle, leave, before, ?_, removes, fun call member authorizes => ?_⟩
  · rw [split, List.append_assoc, List.cons_append]
  · have mine : call.task = statusTask := by
      apply statusTask_of_authorizes valid _ authorizes
      rw [split]
      rcases List.mem_append.mp member with inSince | behind
      · exact List.mem_append_left _ inSince
      · apply List.mem_append_right
        rcases List.mem_cons.mp behind with rfl | inMiddle
        · exact List.mem_cons_self ..
        · exact List.mem_cons_of_mem _ (List.mem_append_left _ inMiddle)
    rcases List.mem_append.mp member with inSince | behind
    · have own := mem_ownCalls inSince
      rw [mine, logged] at own
      unfold Authorizes at authorizes
      rw [List.mem_singleton.mp own] at authorizes
      cases authorizes
    · rcases List.mem_cons.mp behind with rfl | inMiddle
      · cases forgets.symm.trans authorizes
      · exact between call inMiddle mine

/-- The calls of the status task in a handling. -/
theorem Handling.spares (handling : Handling mac pool.history) {call : GateEntry}
    (member : call ∈ handling.since ++ handling.forget :: (handling.middle ++ [handling.leave]))
    (mine : call.task = statusTask) : Spares mac call := by
  obtain ⟨since, forget, middle, leave, before, split, forgets, removes, logged, between⟩ :=
    handling
  have whole : pool.history = (since ++ forget :: (middle ++ [leave])) ++ before := by
    simp only [split, List.append_assoc, List.cons_append, List.nil_append]
  have inHistory : call ∈ pool.history := whole ▸ List.mem_append_left before member
  obtain ⟨later, earlier, here⟩ := List.append_of_mem inHistory
  apply spares_of_command (valid.kept.mem here).1.1
  rcases List.mem_append.mp member with inSince | behind
  · have own := mem_ownCalls inSince
    rw [mine, logged] at own
    exact .inr (.inr (congrArg Called.command (List.mem_singleton.mp own)))
  · rcases List.mem_cons.mp behind with rfl | rest
    · exact .inr (.inl forgets)
    · rcases List.mem_append.mp rest with inMiddle | isLeave
      · exact (between call inMiddle mine).elim
      · rw [List.mem_singleton.mp isLeave]
        exact .inl removes

/-- A station that was removed, and not authorized since, is no client. -/
theorem not_client_of_removed (removed : Since (Removes mac) (Authorizes mac) pool.history) :
    gateIsApClient pool.shared.clients mac = false :=
  Bool.eq_false_iff.mpr fun client => valid.holds.2.1 mac removed (gateIsApClient_iff.mp client)

/-- Nor was it taken for one in between. -/
theorem not_answered_client {later earlier : List GateEntry} {call : GateEntry}
    (split : pool.history = later ++ call :: earlier)
    (removed : Since (Removes mac) (Authorizes mac) earlier) :
    call.called ≠ ⟨.isApClient mac, true⟩ := by
  obtain ⟨⟨_, absent, _⟩, _, choice, answered⟩ := valid.kept.mem split
  obtain ⟨task, before, called⟩ := call
  rintro rfl
  exact absent mac removed (gateIsApClient_iff.mp answered.symm)

/-- Behind the drop of its mappings, and as long as it is not learned, no lookup
and no snapshot yields the address. -/
theorem not_yielded {later earlier : List GateEntry} {call : GateEntry}
    (split : pool.history = later ++ call :: earlier)
    (forgotten : Since (ForgetsMac mac) (LearnsMac mac) earlier) : ¬ YieldsMac mac call := by
  obtain ⟨⟨_, _, without⟩, _, choice, answered⟩ := valid.kept.mem split
  obtain ⟨task, before, called⟩ := call
  have absent := without mac forgotten
  rintro (⟨now, ip, side, rfl⟩ | ⟨now, view, rfl, row, inView, same⟩)
  · rcases gwArpLookupLocked_cases before.table now ip with
      ⟨_, result⟩ | ⟨slot, used, _, ⟨_, result⟩ | ⟨_, result⟩⟩
    · cases answered.trans (congrArg Prod.snd result)
    · cases answered.trans (congrArg Prod.snd result)
    · cases answered.trans (congrArg Prod.snd result)
      exact absent slot used rfl
  · have taken : view = (gwArpAnnounceLocked before.table now).2 := answered
    rw [taken] at inView
    obtain ⟨i, used, _, rfl⟩ := mem_gwArpAnnounceLocked.mp inView
    exact absent i used same

end

/-- The status callback is over with a station that left. -/
def FinishedLeaving (mac : Mac)
    (pool : Pool GateContext GateJob GateState GateResponse) : Prop :=
  pool.jobs statusTask = some (.apStatus (some ⟨.unknown, mac⟩)) ∧
    pool.threads statusTask = .ret ()

/-- In every run of the gate's tasks, once the status callback is over with a
station that left, the station is no client until it is authorized; from the drop
of its mappings on, no lookup and no snapshot yields its address until it is
learned; and the calls of the callback change no other client and no mapping of
another address. -/
theorem departed_forgotten (macs : GateMacs)
    {turns : List (Turn GateContext GateJob GateOutside)}
    {pool : Pool GateContext GateJob GateState GateResponse}
    (reached : (gateMachine macs).run turns = some pool) {mac : Mac}
    (finished : FinishedLeaving mac pool) :
    ∃ handling : Handling mac pool.history,
      (∀ call ∈ handling.since ++ handling.forget :: (handling.middle ++ [handling.leave]),
        call.task = statusTask → Spares mac call) ∧
      ∀ more later, (gateMachine macs).runFrom pool more = some later →
        ∃ new, later.history = new ++ pool.history ∧
          ((∀ call ∈ new, ¬ Authorizes mac call) →
            gateIsApClient later.shared.clients mac = false ∧
              ∀ call ∈ new, call.called ≠ ⟨.isApClient mac, true⟩) ∧
          ((∀ call ∈ new ++ handling.since, ¬ LearnsMac mac call) →
            later.shared.table.Without mac ∧ ∀ call ∈ new, ¬ YieldsMac mac call) := by
  have invariant := (departureDiscipline_sound macs).invariant
  have valid := invariant.run reached
  have proceeds := valid.proceeds statusTask
  rw [finished.1, finished.2] at proceeds
  obtain ⟨handling⟩ := exists_handling (proceeds mac rfl rfl)
  refine ⟨handling, fun call => handling.spares valid, fun more later continued => ?_⟩
  obtain ⟨new, grown⟩ := history_of_runFrom continued
  have validLater := Machine.runFrom_of_step invariant.step valid continued
  refine ⟨new, grown, fun unauthorized => ⟨?_, fun call member => ?_⟩,
    fun unlearned => ⟨?_, fun call member => ?_⟩⟩
  · apply not_client_of_removed validLater
    rw [grown]
    exact (handling.removed valid).append unauthorized
  · obtain ⟨front, back, rfl⟩ := List.append_of_mem member
    apply not_answered_client validLater (grown.trans (List.append_assoc ..))
    apply (handling.removed valid).append
    intro other inBack
    exact unauthorized other (List.mem_append_right _ (List.mem_cons_of_mem _ inBack))
  · apply validLater.holds.2.2 mac
    rw [grown]
    exact handling.forgotten unlearned
  · obtain ⟨front, back, rfl⟩ := List.append_of_mem member
    apply not_yielded validLater (grown.trans (List.append_assoc ..))
    apply handling.forgotten
    intro other inBack
    apply unlearned other
    rcases List.mem_append.mp inBack with behind | inSince
    · exact List.mem_append_left _ (List.mem_append_right _ (List.mem_cons_of_mem _ behind))
    · exact List.mem_append_right _ inSince

/-- A station of the AP. -/
def leavingStation : Mac := .station 5

/-- It joins and leaves. -/
def joinedAndLeft : List (Turn GateContext GateJob GateOutside) :=
  bootTurns ++ .start statusTask (.apStatus (some ⟨.authorized, leavingStation⟩)) ::
    List.replicate 2 (.resume statusTask ⟨0, true⟩) ++
    .start statusTask (.apStatus (some ⟨.unknown, leavingStation⟩)) ::
    List.replicate 3 (.resume statusTask ⟨0, true⟩)

theorem joinedAndLeft_forgotten :
    ∃ pool, (gateMachine exampleGate).run joinedAndLeft = some pool ∧
      FinishedLeaving leavingStation pool ∧
        gateIsApClient pool.shared.clients leavingStation = false := by
  have evaluated : ∃ pool, (gateMachine exampleGate).run joinedAndLeft = some pool ∧
      FinishedLeaving leavingStation pool := ⟨_, rfl, rfl, rfl⟩
  obtain ⟨pool, reached, finished⟩ := evaluated
  obtain ⟨_, _, continues⟩ := departed_forgotten exampleGate reached finished
  obtain ⟨new, grown, absent, _⟩ := continues [] pool rfl
  have none : new = [] := List.self_eq_append_left.mp grown
  exact ⟨pool, reached, finished, (absent (none ▸ List.forall_mem_nil _)).1⟩

/-- It leaves the AP for the mesh: a packet of its own from there is learned
behind the drop of its mappings and before the callback returns. -/
def leftForMesh : List (Turn GateContext GateJob GateOutside) :=
  bootTurns ++ .start statusTask (.apStatus (some ⟨.unknown, leavingStation⟩)) ::
    List.replicate 2 (.resume statusTask ⟨0, true⟩) ++
    .start (.task .meshRx) (.meshRx meshHostPacket) ::
    List.replicate 2 (.resume (.task .meshRx) ⟨1000, true⟩) ++ [.resume statusTask ⟨0, true⟩]

/-- A round of the announce task. -/
def announceRound : List (Turn GateContext GateJob GateOutside) :=
  .start (.task .announce) .announce :: List.replicate 3 (.resume (.task .announce) ⟨1000, true⟩)

/-- A snapshot behind the callback can hold a station that left, although it was
not learned behind the callback. -/
theorem learned_while_leaving :
    ¬ ∀ turns pool mac, (gateMachine exampleGate).run turns = some pool →
      FinishedLeaving mac pool → ∀ more later new,
        (gateMachine exampleGate).runFrom pool more = some later →
          later.history = new ++ pool.history → (∀ call ∈ new, ¬ LearnsMac mac call) →
            ∀ call ∈ new, ¬ YieldsMac mac call := by
  intro claimed
  have evaluated : ∃ pool later sweep sampled take row,
      (gateMachine exampleGate).run leftForMesh = some pool ∧
        FinishedLeaving leavingStation pool ∧
          (gateMachine exampleGate).runFrom pool announceRound = some later ∧
            later.history = [sweep, sampled, take] ++ pool.history ∧
              sweep.called = ⟨.announceLocked 1000, [row]⟩ ∧ row.mac = leavingStation ∧
                sampled.called.command = .nowMs ∧ take.called.command = .notifyTake :=
    ⟨_, _, _, _, _, _, rfl, ⟨rfl, rfl⟩, rfl, rfl, rfl, rfl, rfl, rfl⟩
  obtain ⟨pool, later, sweep, sampled, take, row, reached, finished, continued, grown, swept, same,
    samples, takes⟩ := evaluated
  refine claimed leftForMesh pool leavingStation reached finished announceRound later _ continued
    grown ?_ sweep (List.mem_cons_self ..)
    (.inr ⟨1000, _, swept, row, List.mem_singleton_self _, same⟩)
  rintro call member ⟨now, ip, side, learns⟩
  rcases List.mem_cons.mp member with rfl | rest
  · cases (congrArg Called.command swept).symm.trans learns
  · rcases List.mem_cons.mp rest with rfl | rest
    · cases samples.symm.trans learns
    · rw [List.mem_singleton.mp rest] at learns
      cases takes.symm.trans learns

end Rimba.Gate
