import Rimba.Foundation.Machine
import Rimba.Gate.ArpTable

/-! # The tasks sharing the proxy-ARP table

`gw_arp_learn`, `gw_arp_lookup` and `gw_arp_announce_once` sample the clock
first and take the lock afterwards, so another task can run its own locked body
in between. The machine of this module interleaves the two halves of every
call, the clock and `gw_arp_forget_mac` in any order. It keeps, beside the
program's own state, when each address was last learned.

A lookup or a sweep expires a mapping by the age its own sample gives it. A
mapping learned with a later sample than the sweep's looks almost a clock
revolution old, so a mapping can be dropped in the instant it is learned
(`Rimba.Gate.fresh_mapping_dropped`). As long as every sample a lookup or sweep
compares is in order, nothing learned within the limit is dropped
(`Rimba.Gate.keepsFresh_of_sampledInOrder`), and when no call is held for half
a clock revolution before its lock that condition is exact
(`Rimba.Gate.sampledInOrder_of_keepsFresh`).
-/

namespace Rimba.Gate

/-- The calls that read the clock before they take the lock. -/
inductive ArpCall where
  | learn (ip : UInt32) (mac : Mac) (side : GwSide)
  | lookup (ip : UInt32)
  | announce
  deriving DecidableEq

/-- The tasks that reach the table. -/
inductive GateTask where
  | meshRx
  | apRx
  | apStatus
  | announce
  deriving DecidableEq

/-- The calls each task makes. -/
def GateTask.calls : GateTask → ArpCall → Bool
  | .meshRx, .learn .. | .meshRx, .lookup _ | .apRx, .learn .. | .apRx, .lookup _ => true
  | .announce, .announce => true
  | _, _ => false

/-- Whether a call gets past its own guard and reads the clock at all. -/
def ArpCall.samples : ArpCall → Bool
  | .learn ip mac _ => learnable ip mac
  | .lookup _ | .announce => true

/-- The calls that expire mappings. -/
def ArpCall.expires : ArpCall → Bool
  | .learn .. => false
  | .lookup _ | .announce => true

/-- The addresses whose mapping a call looks at to expire it. -/
def ArpCall.ages : ArpCall → UInt32 → Bool
  | .learn .., _ => false
  | .lookup ip, held => ip = held
  | .announce, _ => true

/-- A call that has read the clock and waits for the lock. -/
structure SampledCall where
  call : ArpCall
  sampled : ℕ

/-- When the last learn of an address read the clock, and when it wrote the
table. -/
structure LearnStamp where
  sampled : ℕ
  written : ℕ
  deriving DecidableEq

/-- The shared table, the tick count and the half-finished calls, with the
history of the last learn of each address. -/
structure ArpSystem where
  ticks : ℕ
  table : ArpTable
  pending : GateTask → Option SampledCall
  latest : UInt32 → Option LearnStamp

/-- One step of the gate's tasks. -/
inductive ArpStep where
  /-- The clock advances. -/
  | tick (ticks : ℕ)
  /-- A task enters a call and reads the clock. -/
  | sample (task : GateTask) (call : ArpCall)
  /-- A task takes the lock, runs the body of its call and releases the lock. -/
  | locked (task : GateTask)
  /-- The AP status task runs `gw_arp_forget_mac`. -/
  | forget (mac : Mac)

section

variable (portTickPeriodMs : UInt32)

/-- The locked body of a call that sampled the clock at `sampled`. -/
def ArpSystem.locked (system : ArpSystem) (sampled : ℕ) : ArpCall → ArpSystem
  | .learn ip mac side =>
      { system with
        table := (gwArpLearnLocked system.table (gwNowMs portTickPeriodMs sampled) ip mac side).1
        latest := Function.update system.latest ip (some ⟨sampled, system.ticks⟩) }
  | .lookup ip =>
      { system with
        table := (gwArpLookupLocked system.table (gwNowMs portTickPeriodMs sampled) ip).1 }
  | .announce =>
      { system with
        table := (gwArpAnnounceLocked system.table (gwNowMs portTickPeriodMs sampled)).1 }

/-- The interleaved tasks, from a boot. -/
def arpMachine : Foundation.Machine ArpSystem ArpStep where
  initial := ⟨0, .empty, fun _ => none, fun _ => none⟩
  step system
    | .tick ticks => some { system with ticks := system.ticks + ticks }
    | .sample task call =>
        if (system.pending task).isNone && task.calls call && call.samples then
          some { system with
            pending := Function.update system.pending task (some ⟨call, system.ticks⟩) }
        else none
    | .locked task =>
        (system.pending task).map fun waiting =>
          { system.locked portTickPeriodMs waiting.sampled waiting.call with
            pending := Function.update system.pending task none }
    | .forget mac => some { system with table := gwArpForgetMac system.table mac }

/-- The address was learned at most the limit ago, in real time. -/
def ArpSystem.Fresh (system : ArpSystem) (ip : UInt32) : Prop :=
  ∃ stamp ∈ system.latest ip, tickMs portTickPeriodMs (system.ticks - stamp.written) ≤ gwArpTtlMs

/-- No lookup and no sweep of the run frees a slot holding a fresh mapping. -/
def KeepsFresh (steps : List ArpStep) : Prop :=
  ∀ taken ∈ (arpMachine portTickPeriodMs).transitions steps, ∀ task waiting,
    taken.label = .locked task → waiting ∈ taken.before.pending task →
      waiting.call.expires = true →
        ∀ i, (taken.before.table i).used = true → (taken.after.table i).used = false →
          ¬ taken.before.Fresh portTickPeriodMs (taken.before.table i).ip

/-- Whenever a lookup or sweep takes the lock, each fresh mapping it looks at
was learned with a clock sample no later than its own and at most the limit
before it. -/
def SampledInOrder (steps : List ArpStep) : Prop :=
  ∀ taken ∈ (arpMachine portTickPeriodMs).transitions steps, ∀ task waiting,
    taken.label = .locked task → waiting ∈ taken.before.pending task →
      ∀ i, (taken.before.table i).used = true →
        waiting.call.ages (taken.before.table i).ip = true →
        ∀ stamp ∈ taken.before.latest (taken.before.table i).ip,
          tickMs portTickPeriodMs (taken.before.ticks - stamp.written) ≤ gwArpTtlMs →
            tickMs portTickPeriodMs stamp.sampled ≤ tickMs portTickPeriodMs waiting.sampled ∧
            tickMs portTickPeriodMs waiting.sampled ≤
              tickMs portTickPeriodMs stamp.sampled + gwArpTtlMs

/-- No call of the run takes the lock half a clock revolution or more after it
read the clock. -/
def LocksPromptly (steps : List ArpStep) : Prop :=
  ∀ taken ∈ (arpMachine portTickPeriodMs).transitions steps, ∀ task waiting,
    taken.label = .locked task → waiting ∈ taken.before.pending task →
      tickMs portTickPeriodMs taken.before.ticks <
        tickMs portTickPeriodMs waiting.sampled + 2 ^ 31

/-- Every mapping in use was stamped by the last learn of its address, and no
clock sample lies in the future. -/
structure ArpSystem.Consistent (system : ArpSystem) : Prop where
  wellFormed : system.table.WellFormed
  stamped : ∀ i, (system.table i).used = true → ∃ stamp ∈ system.latest (system.table i).ip,
    (system.table i).lastMs = gwNowMs portTickPeriodMs stamp.sampled ∧
      stamp.sampled ≤ stamp.written ∧ stamp.written ≤ system.ticks
  past : ∀ task, ∀ waiting ∈ system.pending task, waiting.sampled ≤ system.ticks ∧
    waiting.call.samples = true

variable {portTickPeriodMs}

/-- A locked lookup or sweep only frees slots. -/
theorem locked_table_of_used {system : ArpSystem} {sampled : ℕ} {call : ArpCall}
    (expiring : call.expires = true) {i : Fin gwArpMax}
    (used : ((system.locked portTickPeriodMs sampled call).table i).used = true) :
    (system.locked portTickPeriodMs sampled call).table i = system.table i := by
  cases call with
  | learn ip mac side => simp only [ArpCall.expires, Bool.false_eq_true] at expiring
  | lookup ip => exact gwArpLookupLocked_of_used used
  | announce =>
      simp only [ArpSystem.locked, gwArpAnnounceLocked] at used ⊢
      exact gwArpAgeOut_of_used used

/-- A locked lookup or sweep frees exactly the slots it looks at whose mapping
its clock sample makes expired. -/
theorem locked_frees_iff {system : ArpSystem} (valid : system.table.WellFormed) {sampled : ℕ}
    {call : ArpCall} (expiring : call.expires = true) {i : Fin gwArpMax}
    (used : (system.table i).used = true) :
    ((system.locked portTickPeriodMs sampled call).table i).used = false ↔
      call.ages (system.table i).ip = true ∧
        (system.table i).expired (gwNowMs portTickPeriodMs sampled) = true := by
  cases call with
  | learn ip mac side => simp only [ArpCall.expires, Bool.false_eq_true] at expiring
  | lookup ip =>
      simp only [ArpSystem.locked, ArpCall.ages, decide_eq_true_eq]
      exact valid.lookup_frees_iff used
  | announce =>
      simp only [ArpSystem.locked, gwArpAnnounceLocked, ArpCall.ages, true_and]
      rw [← Bool.not_eq_true, gwArpAgeOut_used_iff, ← Bool.not_eq_true]
      simp only [used, true_and, not_not]

theorem ArpSystem.Consistent.freed {before after : ArpSystem}
    (valid : before.Consistent portTickPeriodMs)
    (kept : ∀ i, (after.table i).used = true → after.table i = before.table i)
    (latest : after.latest = before.latest) (ticks : before.ticks ≤ after.ticks)
    (past : ∀ task, ∀ waiting ∈ after.pending task, waiting.sampled ≤ after.ticks ∧
      waiting.call.samples = true) :
    after.Consistent portTickPeriodMs where
  wellFormed := valid.wellFormed.free kept
  stamped i used := by
    have same := kept i used
    obtain ⟨stamp, member, read, order, written⟩ := valid.stamped i (same ▸ used)
    rw [latest, same]
    exact ⟨stamp, member, read, order, written.trans ticks⟩
  past := past

/-- A locked body keeps the system consistent. -/
theorem ArpSystem.Consistent.locked {system : ArpSystem}
    (valid : system.Consistent portTickPeriodMs) {sampled : ℕ} (order : sampled ≤ system.ticks)
    {call : ArpCall} (guarded : call.samples = true) :
    (system.locked portTickPeriodMs sampled call).Consistent portTickPeriodMs := by
  cases call with
  | learn ip mac side =>
      refine ⟨valid.wellFormed.learn _ side guarded, fun i used => ?_, valid.past⟩
      obtain ⟨slot, filled, origin⟩ := gwArpLearnLocked_cases system.table
        (gwNowMs portTickPeriodMs sampled) ip mac side
      simp only [ArpSystem.locked, filled] at used ⊢
      by_cases here : i = slot
      · subst here
        simp only [Function.update_self]
        exact ⟨⟨sampled, system.ticks⟩, rfl, rfl, order, le_rfl⟩
      · rw [Function.update_of_ne here] at used ⊢
        have other : (system.table i).ip ≠ ip := by
          intro same
          rcases origin with ⟨_, slotUsed, slotHolds⟩ | ⟨_, absent, _⟩
          · exact here (valid.wellFormed.unique i slot used slotUsed
              (same.trans slotHolds.symm))
          · exact absent ⟨i, used, same⟩
        rw [Function.update_of_ne other]
        exact valid.stamped i used
  | lookup ip =>
      exact valid.freed (fun i used => locked_table_of_used rfl used) rfl
        le_rfl valid.past
  | announce =>
      exact valid.freed (fun i used => locked_table_of_used rfl used) rfl
        le_rfl valid.past

theorem consistent_invariant :
    (arpMachine portTickPeriodMs).Invariant (ArpSystem.Consistent portTickPeriodMs) where
  initial :=
    ⟨ArpTable.wellFormed_empty,
      fun i used => by simp only [arpMachine, ArpTable.empty, Bool.false_eq_true] at used,
      fun task waiting member => by simp only [arpMachine, Option.mem_def, reduceCtorEq] at member⟩
  step before label after valid stepped := by
    cases label with
    | tick ticks =>
        cases Option.some.inj stepped
        refine valid.freed (fun _ _ => rfl) rfl (Nat.le_add_right ..) fun task waiting member => ?_
        exact ⟨(valid.past task waiting member).1.trans (Nat.le_add_right ..),
          (valid.past task waiting member).2⟩
    | sample task call =>
        simp only [arpMachine, Option.ite_none_right_eq_some, Option.some.injEq,
          Bool.and_eq_true] at stepped
        obtain ⟨⟨_, guarded⟩, rfl⟩ := stepped
        refine valid.freed (fun _ _ => rfl) rfl le_rfl fun other waiting member => ?_
        by_cases same : other = task
        · subst same
          simp only [Function.update_self, Option.mem_def, Option.some.injEq] at member
          subst member
          exact ⟨le_rfl, guarded⟩
        · simp only [Function.update_of_ne same] at member
          exact valid.past other waiting member
    | locked task =>
        simp only [arpMachine, Option.map_eq_some_iff] at stepped
        obtain ⟨waiting, pending, rfl⟩ := stepped
        obtain ⟨order, guarded⟩ := valid.past task waiting pending
        have ran := valid.locked order guarded
        have ticks : (before.locked portTickPeriodMs waiting.sampled waiting.call).ticks =
            before.ticks := by cases waiting.call <;> rfl
        refine ran.freed (fun _ _ => rfl) rfl le_rfl fun other later member => ?_
        by_cases same : other = task
        · subst same
          simp only [Function.update_self, Option.mem_def, reduceCtorEq] at member
        · simp only [Function.update_of_ne same] at member
          simp only [ticks]
          exact valid.past other later member
    | forget mac =>
        cases Option.some.inj stepped
        exact valid.freed (fun i used => gwArpForgetMac_of_used used) rfl le_rfl valid.past

/-- What the locked half of a lookup or sweep finds at a slot in use, along any
run: the stamp its mapping carries, and when it frees the slot. -/
theorem locked_of_transition {steps : List ArpStep}
    {taken : Foundation.Transition ArpSystem ArpStep}
    (member : taken ∈ (arpMachine portTickPeriodMs).transitions steps) {task : GateTask}
    {waiting : SampledCall} (label : taken.label = .locked task)
    (pending : waiting ∈ taken.before.pending task) (expiring : waiting.call.expires = true)
    {i : Fin gwArpMax} (used : (taken.before.table i).used = true) :
    waiting.sampled ≤ taken.before.ticks ∧
    (∃ stamp ∈ taken.before.latest (taken.before.table i).ip,
      (taken.before.table i).lastMs = gwNowMs portTickPeriodMs stamp.sampled ∧
        stamp.sampled ≤ stamp.written ∧ stamp.written ≤ taken.before.ticks) ∧
    ((taken.after.table i).used = false ↔
      waiting.call.ages (taken.before.table i).ip = true ∧
        (taken.before.table i).expired (gwNowMs portTickPeriodMs waiting.sampled) = true) := by
  obtain ⟨valid, stepped⟩ := consistent_invariant.transitions member
  refine ⟨(valid.past task waiting pending).1, valid.stamped i used, ?_⟩
  simp only [label, arpMachine, Option.map_eq_some_iff] at stepped
  obtain ⟨found, foundPending, after⟩ := stepped
  cases Option.some.inj (foundPending.symm.trans pending)
  rw [← after]
  exact locked_frees_iff valid.wellFormed expiring used

/-- **Samples in order keep fresh mappings.** In every run whose lookups and
sweeps look only at mappings their own clock sample can age, none of them frees
a mapping learned within the limit. -/
theorem keepsFresh_of_sampledInOrder {steps : List ArpStep}
    (inOrder : SampledInOrder portTickPeriodMs steps) : KeepsFresh portTickPeriodMs steps := by
  intro taken member task waiting label pending expiring i used unused
  rintro ⟨stamp, learned, recent⟩
  obtain ⟨_, ⟨carried, same, read, _⟩, frees⟩ :=
    locked_of_transition member label pending expiring used
  cases Option.some.inj (same.symm.trans learned)
  obtain ⟨aged, old⟩ := frees.mp unused
  obtain ⟨order, young⟩ := inOrder taken member task waiting label pending i used aged stamp
    learned recent
  rw [gwNowMs_eq_reading] at read old
  have tooOld := (expired_iff read order (by unfold gwArpTtlMs at young; omega)).mp old
  omega

/-- A sweep that reads the clock after the mapping it looks at was learned. -/
def promptSweep : List ArpStep :=
  [.tick 1000, .sample .meshRx (.learn 0x0a0a0001 #v[2, 0, 0, 0, 0, 1] .mesh),
    .locked .meshRx, .tick 1, .sample .announce .announce, .locked .announce]

theorem promptSweep_keepsFresh : KeepsFresh 10 promptSweep := by
  refine keepsFresh_of_sampledInOrder fun taken member task waiting label pending => ?_
  obtain ⟨position, rfl⟩ := List.get_of_mem member
  clear member
  match position with
  | ⟨0, _⟩ | ⟨1, _⟩ | ⟨3, _⟩ | ⟨4, _⟩ => cases label
  | ⟨2, _⟩ | ⟨5, _⟩ =>
      cases label
      obtain rfl := Option.some.inj pending
      clear pending
      decide +kernel +revert

/-- With a tick of ten milliseconds, a sweep reads the clock, a mapping is
learned one tick later, and the sweep then takes the lock. -/
def lateSweep : List ArpStep :=
  [.tick 1000, .sample .announce .announce, .tick 1,
    .sample .meshRx (.learn 0x0a0a0001 #v[2, 0, 0, 0, 0, 1] .mesh),
    .locked .meshRx, .locked .announce]

/-- A sweep that read the clock before a mapping was learned drops it. -/
theorem fresh_mapping_dropped : ¬ ∀ steps, KeepsFresh 10 steps := by
  intro always
  have swept := always lateSweep (((arpMachine 10).transitions lateSweep).get ⟨5, by decide⟩)
    (List.get_mem ..) .announce ⟨.announce, 1000⟩ rfl rfl rfl 0 (by decide) (by decide)
  exact swept ⟨⟨1001, 1001⟩, rfl, by decide⟩

/-- Each learn wrote the table less than half a clock revolution after it read
the clock. -/
def ArpSystem.StampedPromptly (portTickPeriodMs : UInt32) (system : ArpSystem) : Prop :=
  ∀ ip, ∀ stamp ∈ system.latest ip,
    tickMs portTickPeriodMs stamp.written < tickMs portTickPeriodMs stamp.sampled + 2 ^ 31

theorem LocksPromptly.stamped {steps : List ArpStep} (prompt : LocksPromptly portTickPeriodMs steps)
    {taken : Foundation.Transition ArpSystem ArpStep}
    (member : taken ∈ (arpMachine portTickPeriodMs).transitions steps) :
    taken.before.StampedPromptly portTickPeriodMs := by
  refine Foundation.Machine.before_of_mem_transitionsFrom ?_ ?_ member
  · intro ip stamp learned
    cases learned
  · rintro ⟨before, label, after⟩ inRun soFar
    have stepped := Foundation.Machine.step_of_mem_transitionsFrom inRun
    simp only at stepped soFar ⊢
    cases label with
    | tick ticks =>
        obtain rfl := Option.some.inj stepped
        exact soFar
    | sample task call =>
        simp only [arpMachine, Option.ite_none_right_eq_some, Option.some.injEq] at stepped
        obtain ⟨_, rfl⟩ := stepped
        exact soFar
    | locked task =>
        simp only [arpMachine, Option.map_eq_some_iff] at stepped
        obtain ⟨waiting, pending, rfl⟩ := stepped
        have short := prompt _ inRun task waiting rfl pending
        rcases waiting with ⟨call, sampled⟩
        cases call with
        | learn learnedIp mac side =>
            intro ip stamp member
            simp only [ArpSystem.locked] at member
            by_cases same : ip = learnedIp
            · subst same
              simp only [Function.update_self, Option.mem_def, Option.some.injEq] at member
              subst member
              exact short
            · rw [Function.update_of_ne same] at member
              exact soFar ip stamp member
        | lookup ip => exact soFar
        | announce => exact soFar
    | forget mac =>
        obtain rfl := Option.some.inj stepped
        exact soFar

/-- When no call is held for half a clock revolution before its lock, a run
that keeps every fresh mapping has its samples in order. -/
theorem sampledInOrder_of_keepsFresh {steps : List ArpStep}
    (prompt : LocksPromptly portTickPeriodMs steps) (keeps : KeepsFresh portTickPeriodMs steps) :
    SampledInOrder portTickPeriodMs steps := by
  intro taken member task waiting label pending i used aged stamp learned recent
  have expiring : waiting.call.expires = true := by
    cases call : waiting.call with
    | learn ip mac side => simp only [call, ArpCall.ages, Bool.false_eq_true] at aged
    | lookup ip => rfl
    | announce => rfl
  obtain ⟨past, ⟨carried, same, read, sampledFirst, written⟩, frees⟩ :=
    locked_of_transition member label pending expiring used
  cases Option.some.inj (same.symm.trans learned)
  have locked := prompt taken member task waiting label pending
  have learnedPromptly := prompt.stamped member _ stamp learned
  have young : (taken.before.table i).expired (gwNowMs portTickPeriodMs waiting.sampled) ≠ true :=
    fun old => keeps taken member task waiting label pending expiring i used
      (frees.mpr ⟨aged, old⟩) ⟨stamp, learned, recent⟩
  have sampledMs := tickMs_mono portTickPeriodMs sampledFirst
  have writtenMs := tickMs_mono portTickPeriodMs written
  have pastMs := tickMs_mono portTickPeriodMs past
  rw [tickMs_sub] at recent
  rw [gwNowMs_eq_reading] at read young
  unfold gwArpTtlMs at recent ⊢
  by_cases order : tickMs portTickPeriodMs stamp.sampled ≤ tickMs portTickPeriodMs waiting.sampled
  · rw [ne_eq, expired_iff read order (by omega)] at young
    unfold gwArpTtlMs at young
    omega
  · refine (young (expired_of_refreshed_later read (by omega) ?_)).elim
    unfold gwArpTtlMs
    omega

end

end Rimba.Gate
