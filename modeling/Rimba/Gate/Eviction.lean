import Mathlib.Data.Finset.Card
import Mathlib.Data.Fintype.Card
import Rimba.Gate.ArpInterleaving

/-! # Which mapping a full table gives up

A learn into a full table overwrites the slot its scan found least recently
refreshed. The scan compares wrapped clock samples by the sign of their difference,
which is an order only for samples less than half a clock revolution apart. Along
every run of the tasks, as long as no mapping is that old, the slot given up is one
of the oldest (`Rimba.Gate.eviction_oldest`).
-/

namespace Rimba.Gate

open Foundation

/-- As far as the clock samples compare like the times they were read at, the slot a
scan notes for eviction was refreshed no later than any it has passed. -/
theorem learnScan_oldest {table : ArpTable} {ip : UInt32} {time : Fin gwArpMax → ℕ}
    (ordered : ∀ i j, refreshedBefore (table i).lastMs (table j).lastMs = true ↔ time i < time j)
    {indices : List (Fin gwArpMax)} {scan : LearnScan}
    (passed : (learnScan table ip indices scan).slot = none) {oldest : Fin gwArpMax}
    (noted : (learnScan table ip indices scan).lruI = some oldest) :
    (∀ lru ∈ scan.lruI, time oldest ≤ time lru) ∧
      ∀ i ∈ indices, (table i).used = true → time oldest ≤ time i := by
  fun_induction learnScan table ip indices scan with
  | case1 scan =>
      refine ⟨fun lru same => ?_, fun i member => by cases member⟩
      cases noted.symm.trans same
      exact le_rfl
  | case2 j rest scan used held => cases passed
  | case3 j rest scan used other earlier ih =>
      obtain ⟨here, later⟩ := ih passed noted
      have atJ := here j rfl
      refine ⟨fun lru same => ?_, fun i member inUse => ?_⟩
      · rw [Option.mem_def.mp same, Option.all_some, ordered] at earlier
        exact atJ.trans earlier.le
      · rcases List.mem_cons.mp member with rfl | inRest
        · exact atJ
        · exact later i inRest inUse
  | case4 j rest scan used other later ih =>
      obtain ⟨here, behind⟩ := ih passed noted
      refine ⟨here, fun i member inUse => ?_⟩
      rcases List.mem_cons.mp member with rfl | inRest
      · cases lru : scan.lruI with
        | none => exact absurd (by rw [lru]; rfl) later
        | some held =>
            rw [lru, Option.all_some, ordered, not_lt] at later
            exact (here held lru).trans later
      · exact behind i inRest inUse
  | case5 j rest scan idle _ ih | case6 j rest scan idle _ ih =>
      obtain ⟨here, later⟩ := ih passed noted
      refine ⟨here, fun i member inUse => ?_⟩
      rcases List.mem_cons.mp member with rfl | inRest
      · exact absurd inUse idle
      · exact later i inRest inUse

/-- Of a full table, a learn of an address it does not hold overwrites a slot that
was refreshed no later than any other. -/
theorem gwArpLearnLocked_oldest {table : ArpTable} (full : ∀ i, (table i).used = true)
    {time : Fin gwArpMax → ℕ}
    (ordered : ∀ i j, refreshedBefore (table i).lastMs (table j).lastMs = true ↔ time i < time j)
    {ip : UInt32} (absent : ¬ table.Holds ip) (now : UInt32) (mac : Mac) (side : GwSide) :
    ∃ slot, (gwArpLearnLocked table now ip mac side).1 =
        Function.update table slot ⟨ip, mac, side, true, now⟩ ∧ ∀ i, time slot ≤ time i := by
  generalize scanned : learnScan table ip (List.finRange gwArpMax) ⟨none, none, none⟩ = scan
  have passed : scan.slot = none := by
    cases stopped : scan.slot with
    | none => rfl
    | some slot => exact absurd ⟨slot, learnScan_slot rfl (scanned ▸ stopped)⟩ absent
  have unfree : scan.freeI = none := by
    cases noted : scan.freeI with
    | none => rfl
    | some slot =>
        have free := learnScan_freeI (by simp only [reduceCtorEq, false_imp_iff, implies_true])
          (scanned ▸ noted)
        exact absurd (full slot) (Bool.eq_false_iff.mp free)
  cases evicted : scan.lruI with
  | none =>
      have none := ((learnScan_full (scanned ▸ passed) (scanned ▸ unfree)).2.2
        (scanned ▸ evicted)).2
      exact absurd none (by decide)
  | some slot =>
      refine ⟨slot, ?_, fun i => ?_⟩
      · simp only [gwArpLearnLocked, scanned, passed, unfree, evicted, Option.none_or]
      · exact (learnScan_oldest ordered (scanned ▸ passed) (scanned ▸ evicted)).2 i
          (List.mem_finRange i) (full i)

section

variable {portTickPeriodMs : UInt32}

/-- How long ago the mapping of a slot was refreshed: the time since the last learn
of its address read the clock. -/
def ArpSystem.age (portTickPeriodMs : UInt32) (system : ArpSystem) (i : Fin gwArpMax) : Option ℕ :=
  (system.latest (system.table i).ip).map fun stamp =>
    tickMs portTickPeriodMs (system.ticks - stamp.sampled)

/-- A mapping of a known age less than a clock revolution is expired exactly when it
is older than the limit. -/
theorem expired_iff_age {entry : GwArpEntry} {sampled ticks : ℕ}
    (stamped : entry.lastMs = gwNowMs portTickPeriodMs sampled) (order : sampled ≤ ticks)
    (short : tickMs portTickPeriodMs (ticks - sampled) < 2 ^ 32) :
    entry.expired (gwNowMs portTickPeriodMs ticks) = true ↔
      gwArpTtlMs < tickMs portTickPeriodMs (ticks - sampled) := by
  have orderMs := tickMs_mono portTickPeriodMs order
  rw [tickMs_sub] at short ⊢
  rw [gwNowMs_eq_reading] at stamped ⊢
  rw [expired_iff stamped orderMs (by omega)]
  omega

/-- **The oldest mapping is evicted.** Along every run of the tasks, when a learn of
an address the full table does not hold takes the lock and no mapping is half a
clock revolution old, it overwrites a slot whose mapping is as old as any, and
changes no other. If any mapping has expired by then, that one has. -/
theorem eviction_oldest {steps : List ArpStep} {system after : ArpSystem} {task : GateTask}
    {ip : UInt32} {mac : Mac} {side : GwSide} {sampled : ℕ}
    (reached : (arpMachine portTickPeriodMs).run steps = some system)
    (full : ∀ i, (system.table i).used = true)
    (young : ∀ i, ∀ age ∈ system.age portTickPeriodMs i, age ≤ 2 ^ 31 - 1)
    (waiting : system.pending task = some ⟨.learn ip mac side, sampled⟩)
    (absent : ¬ system.table.Holds ip)
    (stepped : (arpMachine portTickPeriodMs).step system (.locked task) = some after) :
    ∃ slot oldest, system.age portTickPeriodMs slot = some oldest ∧
      (∀ i, ∃ age, system.age portTickPeriodMs i = some age ∧ age ≤ oldest) ∧
        after.table = Function.update system.table slot
          ⟨ip, mac, side, true, gwNowMs portTickPeriodMs sampled⟩ ∧
          ((∃ i, (system.table i).expired (gwNowMs portTickPeriodMs system.ticks) = true) →
            (system.table slot).expired (gwNowMs portTickPeriodMs system.ticks) = true) := by
  have valid := consistent_invariant.run reached
  choose stamp learned read sampledFirst written using fun i => valid.stamped i (full i)
  have past (i : Fin gwArpMax) : (stamp i).sampled ≤ system.ticks :=
    (sampledFirst i).trans (written i)
  have aged (i : Fin gwArpMax) : system.age portTickPeriodMs i =
      some (tickMs portTickPeriodMs (system.ticks - (stamp i).sampled)) := by
    rw [ArpSystem.age, Option.mem_def.mp (learned i), Option.map_some]
  have short (i : Fin gwArpMax) := young i _ (aged i)
  have ordered (i j : Fin gwArpMax) :
      refreshedBefore (system.table i).lastMs (system.table j).lastMs = true ↔
        tickMs portTickPeriodMs (stamp i).sampled < tickMs portTickPeriodMs (stamp j).sampled := by
    have shortI := short i
    have shortJ := short j
    have pastI := tickMs_mono portTickPeriodMs (past i)
    have pastJ := tickMs_mono portTickPeriodMs (past j)
    rw [tickMs_sub] at shortI shortJ
    rw [refreshedBefore, decide_eq_true_eq, read, read, gwNowMs_eq_reading, gwNowMs_eq_reading]
    exact WrappingClock.signed_neg_iff (by omega) (by omega)
  obtain ⟨slot, filled, oldest⟩ := gwArpLearnLocked_oldest full ordered absent
    (gwNowMs portTickPeriodMs sampled) mac side
  have older (i : Fin gwArpMax) : tickMs portTickPeriodMs (system.ticks - (stamp i).sampled) ≤
      tickMs portTickPeriodMs (system.ticks - (stamp slot).sampled) := by
    rw [tickMs_sub, tickMs_sub]
    exact Nat.sub_le_sub_left (oldest i) _
  refine ⟨slot, _, aged slot, fun i => ⟨_, aged i, older i⟩, ?_, ?_⟩
  · simp only [arpMachine, waiting, Option.map_some, Option.some.injEq] at stepped
    rw [← stepped]
    exact filled
  · rintro ⟨i, expired⟩
    rw [expired_iff_age (read i) (past i) (by have := short i; omega)] at expired
    rw [expired_iff_age (read slot) (past slot) (by have := short slot; omega)]
    exact expired.trans_le (older i)

end

/-- The slots in use. -/
def ArpTable.usedSlots (table : ArpTable) : Finset (Fin gwArpMax) :=
  Finset.univ.filter fun i => (table i).used = true

/-- One more host is learned, a second after the last. -/
def learnStep (host : ℕ) : List ArpStep :=
  [.tick 100, .sample .meshRx (.learn (.ofNat host) (.station 1) .mesh), .locked .meshRx]

/-- Hosts are learned one after the other. -/
def fillSteps : ℕ → List ArpStep
  | 0 => []
  | hosts + 1 => fillSteps hosts ++ learnStep (hosts + 1)

/-- A learn of an address that is not held takes a free slot while there is one. -/
theorem usedSlots_learn {table : ArpTable} {ip : UInt32} (absent : ¬ table.Holds ip)
    (room : table.usedSlots.card < gwArpMax) (now : UInt32) (mac : Mac) (side : GwSide) :
    (gwArpLearnLocked table now ip mac side).1.usedSlots.card = table.usedSlots.card + 1 ∧
      ∀ held, (gwArpLearnLocked table now ip mac side).1.Holds held →
        held = ip ∨ table.Holds held := by
  obtain ⟨slot, filled, origin⟩ := gwArpLearnLocked_cases table now ip mac side
  have idle : (table slot).used = false := by
    rcases origin with ⟨_, used, held⟩ | ⟨_, _, full⟩
    · exact absurd ⟨slot, used, held⟩ absent
    · by_contra used
      have all := full (Bool.not_eq_false _ ▸ used)
      have everything : table.usedSlots = Finset.univ := Finset.filter_true_of_mem fun i _ => all i
      rw [everything, Finset.card_univ, Fintype.card_fin] at room
      exact lt_irrefl _ room
  constructor
  · have more : (gwArpLearnLocked table now ip mac side).1.usedSlots =
        insert slot table.usedSlots := by
      ext i
      rw [filled]
      by_cases here : i = slot
      · subst here
        simp only [ArpTable.usedSlots, Finset.mem_filter, Finset.mem_univ, true_and,
          Function.update_self, Finset.mem_insert, true_or]
      · simp only [ArpTable.usedSlots, Finset.mem_filter, Finset.mem_univ, true_and,
          Function.update_of_ne here, Finset.mem_insert, here, false_or]
    rw [more, Finset.card_insert_of_notMem]
    simp only [ArpTable.usedSlots, Finset.mem_filter, idle, Bool.false_eq_true, and_false,
      not_false_eq_true]
  · rintro held ⟨i, used, same⟩
    rw [filled] at used same
    by_cases here : i = slot
    · subst here
      rw [Function.update_self] at same
      exact .inl same.symm
    · rw [Function.update_of_ne here] at used same
      exact .inr ⟨i, used, same⟩

/-- A host is learned by a task that is idle. -/
theorem runFrom_learnStep {system : ArpSystem} {host : ℕ} (idle : system.pending .meshRx = none)
    (guarded : learnable (.ofNat host) (.station 1) = true) :
    ∃ after, (arpMachine 10).runFrom system (learnStep host) = some after ∧
      after.ticks = system.ticks + 100 ∧ after.pending .meshRx = none ∧
        after.table = (gwArpLearnLocked system.table (gwNowMs 10 (system.ticks + 100))
          (.ofNat host) (.station 1) .mesh).1 := by
  have sampled : ((system.pending .meshRx).isNone &&
      GateTask.meshRx.calls (.learn (.ofNat host) (.station 1) .mesh) &&
        (ArpCall.learn (.ofNat host) (.station 1) .mesh).samples) = true := by
    rw [idle, ArpCall.samples, guarded]
    rfl
  simp only [learnStep, Machine.runFrom_cons, Machine.runFrom_nil, arpMachine, sampled, ↓reduceIte,
    Option.bind_some, Function.update_self, Option.map_some]
  exact ⟨_, rfl, rfl, by simp only [Function.update_self], rfl⟩

/-- Up to 48 hosts fill a slot each. -/
theorem filled_run (hosts : ℕ) (room : hosts ≤ gwArpMax) :
    ∃ system, (arpMachine 10).run (fillSteps hosts) = some system ∧
      system.ticks = hosts * 100 ∧ system.pending .meshRx = none ∧
        system.table.usedSlots.card = hosts ∧
          ∀ ip, system.table.Holds ip → ip.toNat ≤ hosts := by
  induction hosts with
  | zero =>
      refine ⟨(arpMachine 10).initial, rfl, rfl, rfl, ?_, ?_⟩
      · decide
      · rintro ip ⟨i, used, _⟩
        cases used
  | succ hosts ih =>
      obtain ⟨system, reached, ticks, idle, count, held⟩ := ih (by omega)
      have small : hosts + 1 ≤ 48 := room
      have number : (UInt32.ofNat (hosts + 1)).toNat = hosts + 1 := by
        rw [UInt32.toNat_ofNat']
        omega
      have nonzero : UInt32.ofNat (hosts + 1) ≠ 0 := by
        intro zero
        rw [zero] at number
        cases number
      have guarded : learnable (.ofNat (hosts + 1)) (.station 1) = true := by
        rw [learnable, decide_eq_true nonzero]
        decide
      have absent : ¬ system.table.Holds (.ofNat (hosts + 1)) := by
        intro holds
        have known := held _ holds
        omega
      obtain ⟨after, stepped, later, idleAfter, table⟩ := runFrom_learnStep idle guarded
      obtain ⟨more, learned⟩ := usedSlots_learn absent (by omega)
        (gwNowMs 10 (system.ticks + 100)) (.station 1) .mesh
      refine ⟨after, ?_, by omega, idleAfter, by rw [table, more, count], fun ip holds => ?_⟩
      · rw [Machine.run] at reached ⊢
        rw [fillSteps, Machine.runFrom_append, reached]
        exact stepped
      · rw [table] at holds
        rcases learned ip holds with rfl | before
        · exact number.le
        · exact (held ip before).trans (Nat.le_succ hosts)

/-- A full table gives up one of its oldest mappings for a 49th host. -/
theorem eviction_oldest_full :
    ∃ system after : ArpSystem, (∀ i, (system.table i).used = true) ∧
      ¬ system.table.Holds 49 ∧ (arpMachine 10).step system (.locked .meshRx) = some after ∧
        ∃ slot oldest, system.age 10 slot = some oldest ∧
          (∀ i, ∃ age, system.age 10 i = some age ∧ age ≤ oldest) ∧
            after.table = Function.update system.table slot
              ⟨49, .station 1, .mesh, true, gwNowMs 10 system.ticks⟩ := by
  obtain ⟨filled, reached, ticks, idle, count, held⟩ := filled_run gwArpMax le_rfl
  let system : ArpSystem :=
    { filled with
      pending := Function.update filled.pending .meshRx
        (some ⟨.learn 49 (.station 1) .mesh, filled.ticks⟩) }
  have sampled : ((filled.pending .meshRx).isNone &&
      GateTask.meshRx.calls (.learn 49 (.station 1) .mesh) &&
        (ArpCall.learn 49 (.station 1) .mesh).samples) = true := by
    rw [idle]
    decide
  have asked : (arpMachine 10).run
      (fillSteps gwArpMax ++ [.sample .meshRx (.learn 49 (.station 1) .mesh)]) = some system := by
    rw [Machine.run] at reached ⊢
    rw [Machine.runFrom_append, reached]
    simp only [Option.bind_some, Machine.runFrom_cons, Machine.runFrom_nil, arpMachine, sampled,
      ↓reduceIte]
    rfl
  have waiting : system.pending .meshRx = some ⟨.learn 49 (.station 1) .mesh, filled.ticks⟩ := by
    simp only [system, Function.update_self]
  have stepped : (arpMachine 10).step system (.locked .meshRx) =
      some { system.locked 10 filled.ticks (.learn 49 (.station 1) .mesh) with
        pending := Function.update system.pending .meshRx none } := by
    simp only [arpMachine, waiting, Option.map_some]
  have full (i : Fin gwArpMax) : (system.table i).used = true := by
    have everything : filled.table.usedSlots = Finset.univ := by
      rw [← Finset.card_eq_iff_eq_univ, count, Fintype.card_fin]
    have member : i ∈ filled.table.usedSlots := everything ▸ Finset.mem_univ i
    exact (Finset.mem_filter.mp member).2
  have absent : ¬ system.table.Holds 49 := fun holds => absurd (held 49 holds) (by decide)
  have young : ∀ i, ∀ age ∈ system.age 10 i, age ≤ 2 ^ 31 - 1 := by
    intro i age known
    obtain ⟨stamp, _, rfl⟩ := Option.map_eq_some_iff.mp known
    have bound : tickMs 10 (system.ticks - stamp.sampled) ≤ tickMs 10 (48 * 100) :=
      tickMs_mono 10 ((Nat.sub_le ..).trans ticks.le)
    exact bound.trans (by decide)
  obtain ⟨slot, oldest, aged, older, written, _⟩ :=
    eviction_oldest asked full young waiting absent stepped
  exact ⟨system, _, full, absent, stepped, slot, oldest, aged, older, written⟩

end Rimba.Gate
