import Mathlib.Data.List.FinRange
import Mathlib.Logic.Function.Basic
import Rimba.Foundation.WrappingClock

/-! # The gate's proxy-ARP table

The 48-slot table of `firmware/rimba-halow-mesh-ap`, and the four operations
that run under its lock: `gw_arp_learn`, `gw_arp_forget_mac`, `gw_arp_lookup`
and the sweep of `gw_arp_announce_once`. Each is given as its locked body,
which takes the millisecond clock its caller sampled before taking the lock.
What a body can do is stated once for all later use:
`Rimba.Gate.gwArpLearnLocked_cases`, `Rimba.Gate.gwArpLookupLocked_cases` and
the slotwise descriptions of the two others. A table with one slot for each
address and only learnable bindings (`Rimba.Gate.ArpTable.WellFormed`) stays so
under all four.
-/

namespace Rimba.Gate

/-- The 48 slots of `g_gw_arp`. -/
abbrev gwArpMax : ℕ := 48

/-- `GW_ARP_TTL_MS`: five minutes. -/
def gwArpTtlMs : ℕ := 5 * 60 * 1000

/-- The side of the gate a host was learned on. -/
inductive GwSide where
  | ap
  | mesh
  deriving DecidableEq, Repr

/-- The other side of the gate. -/
def GwSide.opposite : GwSide → GwSide
  | .ap => .mesh
  | .mesh => .ap

theorem GwSide.ne_iff_opposite {side other : GwSide} : other ≠ side ↔ other = side.opposite := by
  cases side <;> cases other <;> decide

/-- A six-octet hardware address. -/
abbrev Mac := Vector UInt8 6

/-- The addresses of this development's examples, by their last octet. -/
def Mac.station (octet : UInt8) : Mac := #v[2, 0, 0, 0, 0, octet]

/-- The group bit of an address: broadcast or multicast. -/
def Mac.group (mac : Mac) : Bool := mac[0] &&& 0x01 ≠ 0

/-- One slot: `struct gw_arp_entry`. -/
structure GwArpEntry where
  ip : UInt32
  mac : Mac
  side : GwSide
  used : Bool
  lastMs : UInt32
  deriving DecidableEq, Repr

/-- The table `g_gw_arp`. -/
abbrev ArpTable := Fin gwArpMax → GwArpEntry

/-- The zeroed table of a boot. -/
def ArpTable.empty : ArpTable := fun _ => ⟨0, Vector.replicate 6 0, .ap, false, 0⟩

/-- `gw_now_ms`: the tick count times the tick period, in 32-bit arithmetic. -/
def gwNowMs (portTickPeriodMs : UInt32) (tickCount : ℕ) : UInt32 :=
  UInt32.ofNat tickCount * portTickPeriodMs

/-- The milliseconds a number of ticks lasts. -/
def tickMs (portTickPeriodMs : UInt32) (ticks : ℕ) : ℕ :=
  ticks * portTickPeriodMs.toNat

/-- `(uint32_t)(now - last_ms) > GW_ARP_TTL_MS` -/
def GwArpEntry.expired (entry : GwArpEntry) (now : UInt32) : Bool :=
  gwArpTtlMs < Foundation.WrappingClock.age now entry.lastMs

/-- What the loop of `gw_arp_learn` carries: `free_i`, `lru_i` and `slot`. -/
structure LearnScan where
  freeI : Option (Fin gwArpMax)
  lruI : Option (Fin gwArpMax)
  slot : Option (Fin gwArpMax)

/-- `(int32_t)(first - second) < 0` -/
def refreshedBefore (first second : UInt32) : Bool := (first - second).toInt32 < 0

/-- The loop of `gw_arp_learn`, which stops at the slot holding the address. -/
def learnScan (table : ArpTable) (ip : UInt32) : List (Fin gwArpMax) → LearnScan → LearnScan
  | [], scan => scan
  | i :: rest, scan =>
      if (table i).used then
        if (table i).ip = ip then { scan with slot := some i }
        else if scan.lruI.all fun lru => refreshedBefore (table i).lastMs (table lru).lastMs then
          learnScan table ip rest { scan with lruI := some i }
        else learnScan table ip rest scan
      else if scan.freeI.isNone then learnScan table ip rest { scan with freeI := some i }
      else learnScan table ip rest scan

/-- `gw_arp_learn` between lock and unlock; the flag is `is_new`. -/
def gwArpLearnLocked (table : ArpTable) (now : UInt32) (ip : UInt32) (mac : Mac) (side : GwSide) :
    ArpTable × Bool :=
  let scan := learnScan table ip (List.finRange gwArpMax) ⟨none, none, none⟩
  match scan.slot with
  | some slot =>
      (Function.update table slot { table slot with mac := mac, side := side, lastMs := now },
        false)
  | none =>
      match scan.freeI.or scan.lruI with
      | some slot => (Function.update table slot ⟨ip, mac, side, true, now⟩, true)
      | none => (table, false)

/-- The guard at the head of `gw_arp_learn`: neither 0.0.0.0 nor a group
address is learned. -/
def learnable (ip : UInt32) (mac : Mac) : Bool := ip ≠ 0 && !mac.group

/-- `gw_arp_learn` with the clock sample `now`. -/
def gwArpLearn (table : ArpTable) (now : UInt32) (ip : UInt32) (mac : Mac) (side : GwSide) :
    ArpTable :=
  if learnable ip mac then (gwArpLearnLocked table now ip mac side).1 else table

/-- `gw_arp_forget_mac` -/
def gwArpForgetMac (table : ArpTable) (mac : Mac) : ArpTable := fun i =>
  if (table i).used && (table i).mac = mac then { table i with used := false } else table i

/-- `gw_arp_lookup` between lock and unlock: an expired mapping is freed and
not returned. -/
def gwArpLookupLocked (table : ArpTable) (now : UInt32) (ip : UInt32) :
    ArpTable × Option (Mac × GwSide) :=
  match (List.finRange gwArpMax).find? fun i => (table i).used && (table i).ip = ip with
  | none => (table, none)
  | some i =>
      if (table i).expired now then
        (Function.update table i { table i with used := false }, none)
      else (table, some ((table i).mac, (table i).side))

/-- One row of the snapshot `view` of `gw_arp_announce_once`. -/
structure ArpView where
  ip : UInt32
  mac : Mac
  side : GwSide
  deriving DecidableEq, Repr

/-- `gw_arp_announce_once` between lock and unlock: the table after ageing. -/
def gwArpAgeOut (table : ArpTable) (now : UInt32) : ArpTable := fun i =>
  if (table i).used && (table i).expired now then { table i with used := false } else table i

/-- `gw_arp_announce_once` between lock and unlock: the table after ageing and
the snapshot of what is left. -/
def gwArpAnnounceLocked (table : ArpTable) (now : UInt32) : ArpTable × List ArpView :=
  (gwArpAgeOut table now,
    (List.finRange gwArpMax).filterMap fun i =>
      if (gwArpAgeOut table now i).used then some ⟨(table i).ip, (table i).mac, (table i).side⟩
      else none)

theorem gwNowMs_eq_reading (portTickPeriodMs : UInt32) (ticks : ℕ) :
    gwNowMs portTickPeriodMs ticks =
      Foundation.WrappingClock.reading (tickMs portTickPeriodMs ticks) := by
  simp only [gwNowMs, Foundation.WrappingClock.reading, tickMs, UInt32.ofNat_mul,
    UInt32.ofNat_toNat]

theorem tickMs_mono (portTickPeriodMs : UInt32) {earlier later : ℕ} (order : earlier ≤ later) :
    tickMs portTickPeriodMs earlier ≤ tickMs portTickPeriodMs later :=
  Nat.mul_le_mul_right _ order

theorem tickMs_sub (portTickPeriodMs : UInt32) (later earlier : ℕ) :
    tickMs portTickPeriodMs (later - earlier) =
      tickMs portTickPeriodMs later - tickMs portTickPeriodMs earlier :=
  Nat.sub_mul ..

/-- A mapping refreshed no later than a clock sample, and less than a clock
revolution before it, is expired exactly when it is older than the limit. -/
theorem expired_iff {entry : GwArpEntry} {sampled refreshed : ℕ}
    (stamped : entry.lastMs = Foundation.WrappingClock.reading refreshed)
    (order : refreshed ≤ sampled) (short : sampled < refreshed + 2 ^ 32) :
    entry.expired (Foundation.WrappingClock.reading sampled) = true ↔
      refreshed + gwArpTtlMs < sampled := by
  simp only [GwArpEntry.expired, stamped, decide_eq_true_eq]
  rw [Foundation.WrappingClock.age_of_le order (by omega)]
  omega

/-- A mapping refreshed after a clock sample is expired by that sample, unless
nearly a clock revolution lies between them. -/
theorem expired_of_refreshed_later {entry : GwArpEntry} {sampled refreshed : ℕ}
    (stamped : entry.lastMs = Foundation.WrappingClock.reading refreshed)
    (order : sampled < refreshed) (short : refreshed + gwArpTtlMs < sampled + 2 ^ 32) :
    entry.expired (Foundation.WrappingClock.reading sampled) = true := by
  simp only [GwArpEntry.expired, stamped, decide_eq_true_eq]
  rw [Foundation.WrappingClock.age_of_lt order (by omega)]
  omega

/-- The address is held by a slot in use. -/
def ArpTable.Holds (table : ArpTable) (ip : UInt32) : Prop :=
  ∃ i, (table i).used = true ∧ (table i).ip = ip

/-- The scan stops only at a slot in use holding the address. -/
theorem learnScan_slot {table : ArpTable} {ip : UInt32} {indices : List (Fin gwArpMax)}
    {scan : LearnScan} (fresh : scan.slot = none) {i : Fin gwArpMax}
    (stopped : (learnScan table ip indices scan).slot = some i) :
    (table i).used = true ∧ (table i).ip = ip := by
  fun_induction learnScan table ip indices scan with
  | case1 scan => simp only [fresh, reduceCtorEq] at stopped
  | case2 scan j rest used held =>
      cases Option.some.inj stopped
      exact ⟨used, held⟩
  | case3 scan j rest _ _ _ ih => exact ih fresh stopped
  | case4 scan j rest _ _ _ ih => exact ih fresh stopped
  | case5 scan j rest _ _ ih => exact ih fresh stopped
  | case6 scan j rest _ _ ih => exact ih fresh stopped

/-- A scan that does not stop has passed no slot in use holding the address. -/
theorem learnScan_absent {table : ArpTable} {ip : UInt32} {indices : List (Fin gwArpMax)}
    {scan : LearnScan} (passed : (learnScan table ip indices scan).slot = none) :
    ∀ i ∈ indices, (table i).used = true → (table i).ip ≠ ip := by
  fun_induction learnScan table ip indices scan with
  | case1 scan => simp only [List.not_mem_nil, false_imp_iff, implies_true]
  | case2 scan j rest used held => simp only [reduceCtorEq] at passed
  | case3 scan j rest _ other _ ih | case4 scan j rest _ other _ ih =>
      rintro i (_ | ⟨_, member⟩) used
      · exact other
      · exact ih passed i member used
  | case5 scan j rest idle _ ih | case6 scan j rest idle _ ih =>
      rintro i (_ | ⟨_, member⟩) used
      · exact (idle used).elim
      · exact ih passed i member used

/-- The free slot a scan notes is free. -/
theorem learnScan_freeI {table : ArpTable} {ip : UInt32} {indices : List (Fin gwArpMax)}
    {scan : LearnScan} (free : ∀ i, scan.freeI = some i → (table i).used = false)
    {i : Fin gwArpMax} (noted : (learnScan table ip indices scan).freeI = some i) :
    (table i).used = false := by
  fun_induction learnScan table ip indices scan with
  | case1 scan => exact free i noted
  | case2 scan j rest used held => exact free i noted
  | case3 scan j rest _ _ _ ih => exact ih free noted
  | case4 scan j rest _ _ _ ih => exact ih free noted
  | case5 scan j rest idle _ ih =>
      refine ih (fun k same => ?_) noted
      cases Option.some.inj same
      exact Bool.eq_false_iff.mpr idle
  | case6 scan j rest _ _ ih => exact ih free noted

/-- A scan that neither stops nor notes a free slot has passed only slots in
use, and has noted one of them for eviction. -/
theorem learnScan_full {table : ArpTable} {ip : UInt32} {indices : List (Fin gwArpMax)}
    {scan : LearnScan} (passed : (learnScan table ip indices scan).slot = none)
    (unnoted : (learnScan table ip indices scan).freeI = none) :
    scan.freeI = none ∧ (∀ i ∈ indices, (table i).used = true) ∧
      ((learnScan table ip indices scan).lruI = none → scan.lruI = none ∧ indices = []) := by
  fun_induction learnScan table ip indices scan with
  | case1 scan =>
      exact ⟨unnoted, by simp only [List.not_mem_nil, false_imp_iff, implies_true],
        fun absent => ⟨absent, rfl⟩⟩
  | case2 scan j rest used held => simp only [reduceCtorEq] at passed
  | case3 scan j rest used _ _ ih =>
      obtain ⟨free, full, noted⟩ := ih passed unnoted
      refine ⟨free, ?_, fun absent => by simpa only [reduceCtorEq, false_and] using noted absent⟩
      rintro i (_ | ⟨_, member⟩)
      · exact used
      · exact full i member
  | case4 scan j rest used _ newer ih =>
      obtain ⟨free, full, noted⟩ := ih passed unnoted
      refine ⟨free, ?_, fun absent => ?_⟩
      · rintro i (_ | ⟨_, member⟩)
        · exact used
        · exact full i member
      · simp only [(noted absent).1, Option.all_none, not_true_eq_false] at newer
  | case5 scan j rest _ _ ih => simpa only [reduceCtorEq, false_and] using (ih passed unnoted).1
  | case6 scan j rest idle noted ih =>
      simp only [(ih passed unnoted).1, Option.isNone_none, not_true_eq_false] at noted

/-- **What a learn does.** It fills one slot with the binding, stamped with the
clock sample: the slot already holding the address, or, when none does, a free
slot or, when all are in use, one noted for eviction. -/
theorem gwArpLearnLocked_cases (table : ArpTable) (now : UInt32) (ip : UInt32) (mac : Mac)
    (side : GwSide) :
    ∃ slot, (gwArpLearnLocked table now ip mac side).1 =
        Function.update table slot ⟨ip, mac, side, true, now⟩ ∧
      ((gwArpLearnLocked table now ip mac side).2 = false ∧ (table slot).used = true ∧
          (table slot).ip = ip ∨
        (gwArpLearnLocked table now ip mac side).2 = true ∧ ¬ table.Holds ip ∧
          ((table slot).used = true → ∀ i, (table i).used = true)) := by
  generalize scanned : learnScan table ip (List.finRange gwArpMax) ⟨none, none, none⟩ = scan
  cases stopped : scan.slot with
  | some slot =>
      obtain ⟨used, held⟩ := learnScan_slot rfl (scanned ▸ stopped)
      refine ⟨slot, ?_, .inl ?_⟩
      · simp only [gwArpLearnLocked, scanned, stopped, used, held]
      · simp only [gwArpLearnLocked, scanned, stopped, used, held, and_self]
  | none =>
      have absent : ¬ table.Holds ip := by
        rintro ⟨i, used, held⟩
        exact learnScan_absent (scanned ▸ stopped) i (List.mem_finRange i) used held
      cases noted : scan.freeI with
      | some slot =>
          have idle := learnScan_freeI (by simp only [reduceCtorEq, false_imp_iff, implies_true])
            (scanned ▸ noted)
          refine ⟨slot, ?_, .inr ⟨?_, absent, ?_⟩⟩
          · simp only [gwArpLearnLocked, scanned, stopped, noted, Option.some_or]
          · simp only [gwArpLearnLocked, scanned, stopped, noted, Option.some_or]
          · simp only [idle, Bool.false_eq_true, false_imp_iff]
      | none =>
          obtain ⟨_, full, evicting⟩ := learnScan_full (scanned ▸ stopped) (scanned ▸ noted)
          cases evicted : scan.lruI with
          | none =>
              have none := (evicting (scanned ▸ evicted)).2
              exact absurd none (by decide)
          | some slot =>
              refine ⟨slot, ?_, .inr ⟨?_, absent, fun _ i => full i (List.mem_finRange i)⟩⟩
              · simp only [gwArpLearnLocked, scanned, stopped, noted, evicted, Option.none_or]
              · simp only [gwArpLearnLocked, scanned, stopped, noted, evicted, Option.none_or]

/-- **What a lookup does.** It finds no slot holding the address; or it finds
one whose mapping has expired and frees it; or it returns the mapping of one
that has not. -/
theorem gwArpLookupLocked_cases (table : ArpTable) (now : UInt32) (ip : UInt32) :
    (¬ table.Holds ip ∧ gwArpLookupLocked table now ip = (table, none)) ∨
    ∃ slot, (table slot).used = true ∧ (table slot).ip = ip ∧
      ((table slot).expired now = true ∧ gwArpLookupLocked table now ip =
          (Function.update table slot { table slot with used := false }, none) ∨
        (table slot).expired now = false ∧ gwArpLookupLocked table now ip =
          (table, some ((table slot).mac, (table slot).side))) := by
  cases found : (List.finRange gwArpMax).find? fun i => (table i).used && (table i).ip = ip with
  | none =>
      refine .inl ⟨?_, by simp only [gwArpLookupLocked, found]⟩
      rintro ⟨i, used, held⟩
      have missed := List.find?_eq_none.mp found i (List.mem_finRange i)
      simp only [used, held, decide_true, Bool.and_self, not_true_eq_false] at missed
  | some slot =>
      have matched := List.find?_some found
      simp only [Bool.and_eq_true, decide_eq_true_eq] at matched
      refine .inr ⟨slot, matched.1, matched.2, ?_⟩
      cases old : (table slot).expired now with
      | true => exact .inl ⟨rfl, by simp only [gwArpLookupLocked, found, old, ↓reduceIte]⟩
      | false =>
          exact .inr ⟨rfl, by
            simp only [gwArpLookupLocked, found, old, Bool.false_eq_true, ↓reduceIte]⟩

theorem gwArpLookupLocked_of_used {table : ArpTable} {now ip : UInt32} {i : Fin gwArpMax}
    (used : ((gwArpLookupLocked table now ip).1 i).used = true) :
    (gwArpLookupLocked table now ip).1 i = table i := by
  rcases gwArpLookupLocked_cases table now ip with
    ⟨_, result⟩ | ⟨slot, _, _, ⟨_, result⟩ | ⟨_, result⟩⟩ <;> rw [result] at used ⊢
  by_cases freed : i = slot
  · subst freed
    simp only [Function.update_self, Bool.false_eq_true] at used
  · exact Function.update_of_ne freed ..

theorem gwArpForgetMac_used_iff {table : ArpTable} {mac : Mac} {i : Fin gwArpMax} :
    (gwArpForgetMac table mac i).used = true ↔ (table i).used = true ∧ (table i).mac ≠ mac := by
  unfold gwArpForgetMac
  by_cases used : (table i).used = true <;> by_cases same : (table i).mac = mac <;>
    simp only [used, same, decide_true, decide_false, Bool.and_true, Bool.and_false, ↓reduceIte,
      Bool.false_eq_true, ne_eq, not_true_eq_false, not_false_eq_true, and_true, and_false]

theorem gwArpForgetMac_of_used {table : ArpTable} {mac : Mac} {i : Fin gwArpMax}
    (used : (gwArpForgetMac table mac i).used = true) : gwArpForgetMac table mac i = table i := by
  unfold gwArpForgetMac at used ⊢
  by_cases forgotten : ((table i).used && (table i).mac = mac) = true
  · simp only [forgotten, ↓reduceIte, Bool.false_eq_true] at used
  · simp only [forgotten, Bool.false_eq_true, ↓reduceIte]

theorem gwArpAgeOut_used_iff {table : ArpTable} {now : UInt32} {i : Fin gwArpMax} :
    (gwArpAgeOut table now i).used = true ↔
      (table i).used = true ∧ (table i).expired now = false := by
  unfold gwArpAgeOut
  by_cases used : (table i).used = true <;> by_cases old : (table i).expired now = true <;>
    simp only [used, old, Bool.and_true, Bool.and_false, ↓reduceIte, Bool.false_eq_true,
      Bool.true_eq_false, and_true, and_false, and_self]

theorem gwArpAgeOut_of_used {table : ArpTable} {now : UInt32} {i : Fin gwArpMax}
    (used : (gwArpAgeOut table now i).used = true) : gwArpAgeOut table now i = table i := by
  unfold gwArpAgeOut at used ⊢
  by_cases aged : ((table i).used && (table i).expired now) = true
  · simp only [aged, ↓reduceIte, Bool.false_eq_true] at used
  · simp only [aged, Bool.false_eq_true, ↓reduceIte]

/-- The rows of a snapshot are the entries the sweep found live. -/
theorem mem_gwArpAnnounceLocked {table : ArpTable} {now : UInt32} {row : ArpView} :
    row ∈ (gwArpAnnounceLocked table now).2 ↔
      ∃ i, (table i).used = true ∧ (table i).expired now = false ∧
        row = ⟨(table i).ip, (table i).mac, (table i).side⟩ := by
  simp only [gwArpAnnounceLocked, List.mem_filterMap, List.mem_finRange, true_and]
  constructor
  · rintro ⟨i, taken⟩
    split at taken
    · next used =>
        cases taken
        obtain ⟨inUse, young⟩ := gwArpAgeOut_used_iff.mp used
        exact ⟨i, inUse, young, rfl⟩
    · cases taken
  · rintro ⟨i, used, young, rfl⟩
    exact ⟨i, by rw [if_pos (gwArpAgeOut_used_iff.mpr ⟨used, young⟩)]⟩

/-- At most one slot in use for each address, and no slot in use holding
0.0.0.0 or a group address. -/
structure ArpTable.WellFormed (table : ArpTable) : Prop where
  unique : ∀ i j, (table i).used = true → (table j).used = true →
    (table i).ip = (table j).ip → i = j
  learned : ∀ i, (table i).used = true → learnable (table i).ip (table i).mac = true

theorem ArpTable.wellFormed_empty : ArpTable.empty.WellFormed :=
  ⟨fun _ _ used => by simp only [ArpTable.empty, Bool.false_eq_true] at used,
    fun _ used => by simp only [ArpTable.empty, Bool.false_eq_true] at used⟩

/-- Freeing slots keeps a table well formed. -/
theorem ArpTable.WellFormed.free {table after : ArpTable} (valid : table.WellFormed)
    (kept : ∀ i, (after i).used = true → after i = table i) : after.WellFormed where
  unique i j usedI usedJ same := by
    have sameI := kept i usedI
    have sameJ := kept j usedJ
    exact valid.unique i j (sameI ▸ usedI) (sameJ ▸ usedJ) (sameI ▸ sameJ ▸ same)
  learned i used := by
    have same := kept i used
    exact same ▸ valid.learned i (same ▸ used)

theorem ArpTable.WellFormed.learn {table : ArpTable} (valid : table.WellFormed) (now : UInt32)
    {ip : UInt32} {mac : Mac} (side : GwSide) (guarded : learnable ip mac = true) :
    (gwArpLearnLocked table now ip mac side).1.WellFormed := by
  obtain ⟨slot, filled, origin⟩ := gwArpLearnLocked_cases table now ip mac side
  -- in either case no other slot holds the address
  have alone : ∀ i, i ≠ slot → (table i).used = true → (table i).ip ≠ ip := by
    intro i other used same
    rcases origin with ⟨_, slotUsed, slotHolds⟩ | ⟨_, absent, _⟩
    · exact other (valid.unique i slot used slotUsed (same.trans slotHolds.symm))
    · exact absent ⟨i, used, same⟩
  rw [filled]
  constructor
  · intro i j usedI usedJ same
    by_cases atI : i = slot <;> by_cases atJ : j = slot
    · exact atI.trans atJ.symm
    · subst atI
      rw [Function.update_self, Function.update_of_ne atJ] at same
      rw [Function.update_of_ne atJ] at usedJ
      exact (alone j atJ usedJ same.symm).elim
    · subst atJ
      rw [Function.update_self, Function.update_of_ne atI] at same
      rw [Function.update_of_ne atI] at usedI
      exact (alone i atI usedI same).elim
    · rw [Function.update_of_ne atI] at usedI same
      rw [Function.update_of_ne atJ] at usedJ same
      exact valid.unique i j usedI usedJ same
  · intro i used
    by_cases at_slot : i = slot
    · subst at_slot
      simpa only [Function.update_self] using guarded
    · rw [Function.update_of_ne at_slot] at used ⊢
      exact valid.learned i used

theorem ArpTable.WellFormed.forgetMac {table : ArpTable} (valid : table.WellFormed) (mac : Mac) :
    (gwArpForgetMac table mac).WellFormed :=
  valid.free fun _ used => gwArpForgetMac_of_used used

theorem ArpTable.WellFormed.lookup {table : ArpTable} (valid : table.WellFormed) (now : UInt32)
    (ip : UInt32) : (gwArpLookupLocked table now ip).1.WellFormed :=
  valid.free fun _ used => gwArpLookupLocked_of_used used

/-- A lookup frees a slot exactly when it holds the address and has expired. -/
theorem ArpTable.WellFormed.lookup_frees_iff {table : ArpTable} (valid : table.WellFormed)
    {now ip : UInt32} {i : Fin gwArpMax} (used : (table i).used = true) :
    ((gwArpLookupLocked table now ip).1 i).used = false ↔
      ip = (table i).ip ∧ (table i).expired now = true := by
  rcases gwArpLookupLocked_cases table now ip with
    ⟨absent, result⟩ | ⟨slot, slotUsed, slotHolds, ⟨old, result⟩ | ⟨young, result⟩⟩ <;>
      simp only [result]
  · simp only [used, Bool.true_eq_false, false_iff, not_and]
    exact fun same => (absent ⟨i, used, same.symm⟩).elim
  · by_cases freed : i = slot
    · subst freed
      simp only [Function.update_self, slotHolds, old, and_self]
    · rw [Function.update_of_ne freed]
      simp only [used, Bool.true_eq_false, false_iff, not_and]
      intro same
      exact (freed (valid.unique i slot used slotUsed (same.symm.trans slotHolds.symm))).elim
  · simp only [used, Bool.true_eq_false, false_iff, not_and]
    intro same
    have here := valid.unique i slot used slotUsed (same.symm.trans slotHolds.symm)
    rw [here, young]
    exact Bool.false_ne_true

theorem ArpTable.WellFormed.ageOut {table : ArpTable} (valid : table.WellFormed) (now : UInt32) :
    (gwArpAgeOut table now).WellFormed :=
  valid.free fun _ used => gwArpAgeOut_of_used used

end Rimba.Gate
