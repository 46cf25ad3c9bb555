import Rimba.Foundation.ExpiringMap
import Rimba.Foundation.Machine
import Rimba.Gate.ArpTable

/-! # What the proxy-ARP table means

The reference of the table is an unbounded map from addresses to the hardware
address and side last learned for them. It knows nothing of slots, of when a
mapping is freed or of the wrapping clock: the only thing it takes from the
table is which addresses were evicted. Run beside the reference with its four
operations atomic, in order of time and never too long after a sweep, the table
answers exactly as its reference does (`Rimba.Gate.arpTable_answers_reference`).
-/

namespace Rimba.Gate

/-- The operations of the table, each atomic. -/
inductive ArpOp where
  | learn (ip : UInt32) (mac : Mac) (side : GwSide)
  | forgetMac (mac : Mac)
  | lookup (ip : UInt32)
  | announce
  deriving DecidableEq

/-- An operation and the true millisecond it runs at. -/
structure TimedOp where
  now : ℕ
  op : ArpOp

/-- What the reference knows of an address. -/
abbrev Binding := Mac × GwSide

/-- The reference map. -/
abbrev ArpReference := Foundation.ExpiringMap UInt32 Binding

instance (table : ArpTable) (ip : UInt32) : Decidable (table.Holds ip) :=
  inferInstanceAs (Decidable (∃ i, (table i).used = true ∧ (table i).ip = ip))

/-- An address the table held before a learn of another one and not after it. -/
def evicted (before after : ArpTable) (ip : UInt32) : Bool :=
  before.Holds ip ∧ ¬ after.Holds ip

/-- The table after an operation. -/
def ArpOp.onTable (table : ArpTable) (now : ℕ) : ArpOp → ArpTable
  | .learn ip mac side => gwArpLearn table (Foundation.WrappingClock.reading now) ip mac side
  | .forgetMac mac => gwArpForgetMac table mac
  | .lookup ip => (gwArpLookupLocked table (Foundation.WrappingClock.reading now) ip).1
  | .announce => (gwArpAnnounceLocked table (Foundation.WrappingClock.reading now)).1

/-- The reference after an operation, given the table before it. -/
def ArpOp.onReference (reference : ArpReference) (table : ArpTable) (now : ℕ) :
    ArpOp → ArpReference
  | .learn ip mac side =>
      if learnable ip mac then
        (reference.remove fun other _ =>
          evicted table ((ArpOp.learn ip mac side).onTable table now) other).learn ip (mac, side)
            now
      else reference
  | .forgetMac mac => reference.remove fun _ binding => binding.1 = mac
  | .lookup _ | .announce => reference

/-- The table, its reference, the time and the time of the last sweep. -/
structure ArpRun where
  table : ArpTable
  reference : ArpReference
  now : ℕ
  sweptAt : ℕ

/-- The longest time from a sweep to any operation before the next one. -/
def sweepWindow : ℕ := 2 ^ 31 - gwArpTtlMs

/-- An operation may run at a time: it has not passed, and the last sweep is
recent. -/
def ArpRun.Allows (run : ArpRun) (now : ℕ) : Prop :=
  run.now ≤ now ∧ now ≤ run.sweptAt + sweepWindow

instance (run : ArpRun) (now : ℕ) : Decidable (run.Allows now) :=
  inferInstanceAs (Decidable (_ ∧ _))

/-- The table and its reference run side by side from the empty table. -/
def referenceMachine (boot : ℕ) : Foundation.Machine ArpRun TimedOp where
  initial := ⟨.empty, .empty, boot, boot⟩
  step run timed :=
    if run.Allows timed.now then
      some
        { table := timed.op.onTable run.table timed.now
          reference := timed.op.onReference run.reference run.table timed.now
          now := timed.now
          sweptAt := if timed.op = .announce then timed.now else run.sweptAt }
    else none

/-- Every slot in use holds what the reference has for its address, no older
than the limit at the last sweep; what the reference has beyond that is too old
to answer. -/
structure ArpRun.Simulates (run : ArpRun) : Prop where
  wellFormed : run.table.WellFormed
  swept_le : run.sweptAt ≤ run.now
  tracked : ∀ i, (run.table i).used = true → ∃ seen ∈ run.reference (run.table i).ip,
    seen.value = ((run.table i).mac, (run.table i).side) ∧
      (run.table i).lastMs = Foundation.WrappingClock.reading seen.seenAt ∧
      seen.seenAt ≤ run.now ∧ run.sweptAt ≤ seen.seenAt + gwArpTtlMs
  dropped : ∀ ip, ¬ run.table.Holds ip → ∀ seen ∈ run.reference ip,
    seen.seenAt + gwArpTtlMs < run.now

theorem ArpTable.WellFormed.onTable {table : ArpTable} (valid : table.WellFormed) (now : ℕ)
    (op : ArpOp) : (op.onTable table now).WellFormed := by
  cases op with
  | learn ip mac side =>
      simp only [ArpOp.onTable, gwArpLearn]
      by_cases guarded : learnable ip mac = true
      · simp only [guarded, ↓reduceIte]
        exact valid.learn _ side guarded
      · simp only [guarded, Bool.false_eq_true, ↓reduceIte]
        exact valid
  | forgetMac mac => exact valid.forgetMac mac
  | lookup ip => exact valid.lookup _ ip
  | announce => exact valid.ageOut _

namespace ArpRun.Simulates

variable {run : ArpRun} {now : ℕ}

/-- Within the sweep window a slot in use expires exactly when its mapping is
older than the limit. -/
theorem expired_iff (simulates : run.Simulates) (allowed : run.Allows now) {i : Fin gwArpMax}
    (used : (run.table i).used = true) {seen : Foundation.Seen Binding}
    (member : seen ∈ run.reference (run.table i).ip) :
    (run.table i).expired (Foundation.WrappingClock.reading now) = true ↔
      seen.seenAt + gwArpTtlMs < now := by
  obtain ⟨found, foundMember, _, stamped, past, swept⟩ := simulates.tracked i used
  cases Option.some.inj (foundMember.symm.trans member)
  obtain ⟨order, window⟩ := allowed
  refine Gate.expired_iff stamped (past.trans order) ?_
  unfold sweepWindow gwArpTtlMs at window
  unfold gwArpTtlMs at swept
  omega

/-- An operation that only frees slots, and frees only those whose mapping the
new reference lacks or finds too old, keeps the simulation. -/
theorem freeing (simulates : run.Simulates) (allowed : run.Allows now) {table : ArpTable}
    {reference : ArpReference} {sweptAt : ℕ}
    (kept : ∀ i, (table i).used = true → table i = run.table i ∧
      reference (run.table i).ip = run.reference (run.table i).ip)
    (swept : sweptAt = run.sweptAt ∨ sweptAt = now ∧ ∀ i, (table i).used = true →
      (run.table i).expired (Foundation.WrappingClock.reading now) = false)
    (shrunk : ∀ ip, ∀ seen ∈ reference ip, seen ∈ run.reference ip)
    (freed : ∀ i, (run.table i).used = true → (table i).used = false →
      (run.table i).expired (Foundation.WrappingClock.reading now) = true ∨
        reference (run.table i).ip = none) :
    ArpRun.Simulates ⟨table, reference, now, sweptAt⟩ where
  wellFormed := simulates.wellFormed.free fun i used => (kept i used).1
  swept_le := by
    rcases swept with rfl | ⟨rfl, _⟩
    · exact simulates.swept_le.trans allowed.1
    · exact le_rfl
  tracked i used := by
    obtain ⟨same, bound⟩ := kept i used
    simp only [same] at used ⊢
    obtain ⟨seen, member, value, stamped, past, recent⟩ := simulates.tracked i used
    refine ⟨seen, bound ▸ member, value, stamped, past.trans allowed.1, ?_⟩
    rcases swept with unswept | ⟨sweptNow, young⟩
    · exact unswept ▸ recent
    · have notOld := young i (same ▸ used)
      rw [← Bool.not_eq_true, simulates.expired_iff allowed used member] at notOld
      omega
  dropped ip absent seen member := by
    have before := shrunk ip seen member
    by_cases held : run.table.Holds ip
    · obtain ⟨i, used, rfl⟩ := held
      have idle : (table i).used = false := by
        by_contra stays
        rw [Bool.not_eq_false] at stays
        exact absent ⟨i, stays, by simp only [(kept i stays).1]⟩
      rcases freed i used idle with old | gone
      · exact (simulates.expired_iff allowed used before).mp old
      · simp only [gone, Option.mem_def, reduceCtorEq] at member
    · exact lt_of_lt_of_le (simulates.dropped ip held seen before) allowed.1

/-- Forgetting a hardware address frees the slots whose reference it removes. -/
theorem forgetMac (simulates : run.Simulates) (allowed : run.Allows now) (mac : Mac) :
    ArpRun.Simulates
      ⟨gwArpForgetMac run.table mac,
        run.reference.remove fun _ binding => binding.1 = mac, now, run.sweptAt⟩ := by
  have trackedMac : ∀ i, (run.table i).used = true →
      ∀ seen ∈ run.reference (run.table i).ip, seen.value.1 = (run.table i).mac := by
    intro i used seen member
    obtain ⟨found, foundMember, value, _⟩ := simulates.tracked i used
    cases Option.some.inj (foundMember.symm.trans member)
    rw [value]
  refine simulates.freeing allowed (fun i used => ?_) (.inl rfl) (fun ip seen member => ?_)
    (fun i used unused => .inr ?_)
  · refine ⟨gwArpForgetMac_of_used used, ?_⟩
    obtain ⟨usedBefore, differs⟩ := gwArpForgetMac_used_iff.mp used
    obtain ⟨seen, member, _⟩ := simulates.tracked i usedBefore
    refine (Foundation.ExpiringMap.remove_eq_some_iff.mpr ⟨member, ?_⟩).trans member.symm
    rw [trackedMac i usedBefore seen member]
    exact decide_eq_false differs
  · exact (Foundation.ExpiringMap.remove_eq_some_iff.mp member).1
  · rw [Option.eq_none_iff_forall_ne_some]
    intro seen member
    obtain ⟨before, differs⟩ := Foundation.ExpiringMap.remove_eq_some_iff.mp member
    rw [trackedMac i used seen before] at differs
    have stays := gwArpForgetMac_used_iff.mpr ⟨used, of_decide_eq_false differs⟩
    exact absurd (stays.symm.trans unused) (by decide)

/-- An operation that writes one slot, and puts the mapping into a reference that has lost
what the slot held, keeps the simulation. -/
theorem writing (simulates : run.Simulates) (allowed : run.Allows now) {table : ArpTable}
    {slot : Fin gwArpMax} {ip : UInt32} {mac : Mac} {side : GwSide} (valid : table.WellFormed)
    (filled : table slot = ⟨ip, mac, side, true, Foundation.WrappingClock.reading now⟩)
    (untouched : ∀ i, i ≠ slot → table i = run.table i) :
    ArpRun.Simulates
      { table := table
        reference := (run.reference.remove fun other _ => evicted run.table table other).learn ip
          (mac, side) now
        now := now
        sweptAt := run.sweptAt } where
  wellFormed := valid
  swept_le := simulates.swept_le.trans allowed.1
  tracked i used := by
    simp only at used ⊢
    by_cases here : i = slot
    · subst here
      refine ⟨⟨(mac, side), now⟩, ?_, ?_⟩
      · rw [filled]
        exact Foundation.ExpiringMap.learn_self _
      · rw [filled]
        have swept := simulates.swept_le.trans allowed.1
        exact ⟨rfl, rfl, le_rfl, swept.trans (Nat.le_add_right ..)⟩
    · have other : (table i).ip ≠ ip := by
        intro same
        exact here (valid.unique i slot used (by rw [filled]) (by rw [same, filled]))
      have stays : ArpTable.Holds table (table i).ip := ⟨i, used, rfl⟩
      rw [untouched i here] at used other stays ⊢
      obtain ⟨seen, member, value, stamped, past, recent⟩ := simulates.tracked i used
      refine ⟨seen, ?_, value, stamped, past.trans allowed.1, recent⟩
      rw [Foundation.ExpiringMap.learn_of_ne _ other]
      refine Foundation.ExpiringMap.remove_eq_some_iff.mpr ⟨member, ?_⟩
      simp only [evicted, stays, not_true_eq_false, and_false, decide_false]
  dropped other absent seen member := by
    simp only at absent member ⊢
    have different : other ≠ ip := by
      rintro rfl
      exact absent ⟨slot, by rw [filled], by rw [filled]⟩
    rw [Foundation.ExpiringMap.learn_of_ne _ different] at member
    obtain ⟨before, notEvicted⟩ := Foundation.ExpiringMap.remove_eq_some_iff.mp member
    have unheld : ¬ run.table.Holds other := fun held => by
      simp only [evicted, held, absent, not_false_eq_true, and_self, decide_true,
        Bool.true_eq_false] at notEvicted
    exact lt_of_lt_of_le (simulates.dropped other unheld seen before) allowed.1

/-- A learn keeps the simulation: its slot and its reference entry are written
alike, and the reference loses what the table evicts. -/
theorem learn (simulates : run.Simulates) (allowed : run.Allows now) {ip : UInt32} {mac : Mac}
    {side : GwSide} (guarded : learnable ip mac = true) :
    ArpRun.Simulates
      { table := (ArpOp.learn ip mac side).onTable run.table now
        reference := (ArpOp.learn ip mac side).onReference run.reference run.table now
        now := now
        sweptAt := run.sweptAt } := by
  have valid := simulates.wellFormed.onTable now (.learn ip mac side)
  obtain ⟨slot, filled, -⟩ := gwArpLearnLocked_cases run.table
    (Foundation.WrappingClock.reading now) ip mac side
  have written : (ArpOp.learn ip mac side).onTable run.table now =
      Function.update run.table slot
        ⟨ip, mac, side, true, Foundation.WrappingClock.reading now⟩ := by
    simp only [ArpOp.onTable, gwArpLearn, guarded, ↓reduceIte, filled]
  simp only [ArpOp.onReference, guarded, ↓reduceIte]
  refine @writing run now simulates allowed _ slot _ _ _ valid ?_ fun i other => ?_
  · rw [written, Function.update_self]
  · rw [written, Function.update_of_ne other]

end ArpRun.Simulates

/-- Every operation the machine allows keeps the simulation. -/
theorem simulates_invariant (boot : ℕ) :
    (referenceMachine boot).Invariant ArpRun.Simulates where
  initial :=
    ⟨ArpTable.wellFormed_empty, le_rfl,
      fun i used => by simp only [referenceMachine, ArpTable.empty, Bool.false_eq_true] at used,
      fun ip _ seen member => by cases member⟩
  step run timed after simulates stepped := by
    obtain ⟨now, op⟩ := timed
    simp only [referenceMachine, Option.ite_none_right_eq_some, Option.some.injEq] at stepped
    obtain ⟨allowed, rfl⟩ := stepped
    cases op with
    | learn ip mac side =>
        by_cases guarded : learnable ip mac = true
        · exact simulates.learn allowed guarded
        · simp only [ArpOp.onTable, ArpOp.onReference, gwArpLearn, guarded, Bool.false_eq_true,
            reduceCtorEq, ↓reduceIte]
          refine simulates.freeing allowed (fun i _ => ⟨rfl, rfl⟩) (.inl rfl)
            (fun ip seen member => member) (fun i used unused => ?_)
          exact absurd (used.symm.trans unused) (by decide)
    | forgetMac mac => exact simulates.forgetMac allowed mac
    | lookup ip =>
        refine simulates.freeing allowed (fun i used => ⟨gwArpLookupLocked_of_used used, rfl⟩)
          (.inl rfl) (fun ip seen member => member) (fun i used unused => .inl ?_)
        exact ((simulates.wellFormed.lookup_frees_iff used).mp unused).2
    | announce =>
        refine simulates.freeing allowed (fun i used => ⟨gwArpAgeOut_of_used used, rfl⟩)
          (.inr ⟨rfl, fun i used => (gwArpAgeOut_used_iff.mp used).2⟩)
          (fun ip seen member => member) (fun i used unused => .inl ?_)
        by_contra young
        have stays := gwArpAgeOut_used_iff.mpr ⟨used, Bool.eq_false_iff.mpr young⟩
        exact absurd (stays.symm.trans unused) (by decide)

/-- A lookup in a simulated run answers from the reference. -/
theorem ArpRun.Simulates.lookup_answers {run : ArpRun} (simulates : run.Simulates) {now : ℕ}
    (allowed : run.Allows now) (ip : UInt32) :
    (gwArpLookupLocked run.table (Foundation.WrappingClock.reading now) ip).2 =
      run.reference.answer gwArpTtlMs now ip := by
  rcases gwArpLookupLocked_cases run.table (Foundation.WrappingClock.reading now) ip with
    ⟨absent, result⟩ | ⟨slot, used, rfl, found⟩
  · rw [result, Foundation.ExpiringMap.answer_of_old]
    exact fun seen member =>
      lt_of_lt_of_le (simulates.dropped ip absent seen member) allowed.1
  · obtain ⟨seen, member, value, _⟩ := simulates.tracked slot used
    have aged := simulates.expired_iff allowed used member
    rcases found with ⟨old, result⟩ | ⟨young, result⟩
    · rw [result, Foundation.ExpiringMap.answer_of_old]
      intro other otherMember
      cases Option.some.inj (member.symm.trans otherMember)
      exact aged.mp old
    · rw [young] at aged
      rw [result, Foundation.ExpiringMap.answer_of_young member (by
        by_contra old
        exact absurd (aged.mpr (Nat.not_le.mp old)) Bool.false_ne_true), value]

/-- A learn evicts only when every slot is in use and none holds the address,
and then one address. -/
theorem evicted_learn {table : ArpTable}
    {now ip : UInt32} {mac : Mac} {side : GwSide} {other : UInt32}
    (gone : evicted table (gwArpLearn table now ip mac side) other = true) :
    (∀ i, (table i).used = true) ∧ ¬ table.Holds ip ∧
      ∀ third, evicted table (gwArpLearn table now ip mac side) third = true → third = other := by
  simp only [evicted, decide_eq_true_eq] at gone ⊢
  by_cases guarded : learnable ip mac = true
  · simp only [gwArpLearn, guarded, ↓reduceIte] at gone ⊢
    obtain ⟨slot, filled, origin⟩ := gwArpLearnLocked_cases table now ip mac side
    rw [filled] at gone ⊢
    -- an address held before and not after was in the slot that was filled
    have inSlot : ∀ lost, table.Holds lost ∧ ¬ ArpTable.Holds
        (Function.update table slot ⟨ip, mac, side, true, now⟩) lost →
        (table slot).used = true ∧ (table slot).ip = lost := by
      rintro lost ⟨⟨i, used, held⟩, absent⟩
      by_cases here : i = slot
      · exact here ▸ ⟨used, held⟩
      · exact (absent ⟨i, by rwa [Function.update_of_ne here],
          by rwa [Function.update_of_ne here]⟩).elim
    obtain ⟨slotUsed, slotHolds⟩ := inSlot other gone
    rcases origin with ⟨_, _, same⟩ | ⟨_, absent, full⟩
    · refine (gone.2 ⟨slot, ?_, ?_⟩).elim <;> rw [Function.update_self]
      exact same.symm.trans slotHolds
    · exact ⟨full slotUsed, absent, fun third lost =>
        (inSlot third lost).2.symm.trans slotHolds⟩
  · simp only [gwArpLearn, guarded, Bool.false_eq_true, ↓reduceIte] at gone
    exact (gone.2 gone.1).elim

/-- **The table refines its reference.** After any operations in order of time,
each within the window of the last sweep, the table is well formed, a lookup
answers what the reference does, and a learn evicts at most one address and only
from a full table. -/
theorem arpTable_answers_reference {boot : ℕ} {ops : List TimedOp} {run : ArpRun}
    (reached : (referenceMachine boot).run ops = some run) :
    run.table.WellFormed ∧
    (∀ now, run.Allows now → ∀ ip,
      (gwArpLookupLocked run.table (Foundation.WrappingClock.reading now) ip).2 =
        run.reference.answer gwArpTtlMs now ip) ∧
    (∀ now ip mac side other,
      evicted run.table (gwArpLearn run.table now ip mac side) other = true →
        (∀ i, (run.table i).used = true) ∧ ¬ run.table.Holds ip ∧
          ∀ third, evicted run.table (gwArpLearn run.table now ip mac side) third = true →
            third = other) := by
  have simulates := (simulates_invariant boot).run reached
  exact ⟨simulates.wellFormed, fun now allowed ip => simulates.lookup_answers allowed ip,
    fun now ip mac side other gone => evicted_learn gone⟩

/-- A host is learned just before the clock wraps, and the table swept after. -/
def learnedAcrossWrap : List TimedOp :=
  [⟨2 ^ 32 - 10, .learn 0x0a0a0001 #v[2, 0, 0, 0, 0, 2] .mesh⟩, ⟨2 ^ 32 + 5, .announce⟩]

theorem learnedAcrossWrap_answers :
    ∃ run, (referenceMachine (2 ^ 32 - 20)).run learnedAcrossWrap = some run ∧
      (gwArpLookupLocked run.table (Foundation.WrappingClock.reading (2 ^ 32 + 40)) 0x0a0a0001).2 =
        some (#v[2, 0, 0, 0, 0, 2], .mesh) := by
  have reached : (referenceMachine (2 ^ 32 - 20)).run learnedAcrossWrap = some _ := rfl
  refine ⟨_, reached, ?_⟩
  rw [(arpTable_answers_reference reached).2.1 _ (by decide)]
  decide

end Rimba.Gate
